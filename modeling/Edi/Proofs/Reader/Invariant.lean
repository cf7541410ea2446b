import Edi.Proofs.Reader.Resume
import Edi.Proofs.Scanner.Invariant

namespace Edi

namespace Scanner.Lasting

variable {p : Scanner → Prop} {t : Scanner} {r : Reader}

theorem readHeaderSegment (hp : Lasting p) (standard : Standard) (start : Nat) (pre : Preamble)
    (h : p t) : p (Reader.readHeaderSegment standard start pre t).2 := by
  have hs {t : Scanner} (h : p t) :
      p (Reader.readHeaderSegment standard start (.implied pre.delimiters) t).2 := by
    have hg := hp.segment h
    simp only [Reader.readHeaderSegment]
    split <;> next hk => rwa [hk] at hg
  cases pre with
  | decoded d n s =>
    have ha := hp.passSegment n h
    simp only [Reader.readHeaderSegment]
    split <;> next hk => rwa [hk] at ha
  | advised d n =>
    have ha := hp.passSegment n h
    simp only [Reader.readHeaderSegment]
    split
    · next hk => rwa [hk] at ha
    · next hk =>
      rw [hk] at ha
      exact hs ha
  | implied d => exact hs h

theorem readHeader (hp : Lasting p) (h : p (r.scanner.peek r.standard.previewLength).2) :
    p r.readHeader.2.scanner := by
  simp only [Reader.readHeader]
  split
  · next hk => rwa [hk] at h
  · next preview t hk =>
    rw [hk] at h
    split
    · exact h
    · next pre _ =>
      have hd : p { t with delimiters := pre.delimiters } := hp.frame h rfl rfl rfl
      have hs := hp.readHeaderSegment r.standard r.scanner.offset pre hd
      split
      · next hr => rwa [hr] at hs
      · next hr =>
        rw [hr] at hs
        split
        · exact hs
        · exact hp.frame hs rfl rfl rfl

theorem run (hp : Lasting p) (policy : Policy) (earlier : List Problem) (tr : Transition)
    (h : p r.scanner) : p (r.run policy earlier tr).2.scanner := by
  fun_induction Reader.run policy earlier tr r with
  | case1 => exact h
  | case2 => exact h
  | case3 earlier tr r _ _ _ _ _ e t hs | case4 earlier tr r _ _ _ _ _ t hs
  | case5 earlier tr r _ _ _ _ _ s t hs =>
    have hg := hp.segment h
    rw [show r.scanner.segment = _ from hs] at hg
    exact hg
  | case6 earlier tr r _ _ _ _ s t hs next _ rest ih =>
    have hg := hp.segment h
    rw [show r.scanner.segment = _ from hs] at hg
    exact ih hg

theorem parse (hp : Lasting p) (policy : Policy) (earlier : List Problem) (h : p r.scanner)
    (ha : p (r.scanner.peek r.standard.previewLength).2) :
    p (r.parse policy earlier).2.scanner := by
  have hr := hp.readHeader ha
  simp only [Reader.parse]
  split
  · exact h
  · split
    · next hk => rwa [hk] at hr
    · next hk =>
      rw [hk] at hr
      exact hp.run policy earlier _ hr

end Scanner.Lasting

namespace Scanner.Invariant

variable {p : Scanner → Prop} {r : Reader}

theorem parse (hp : Invariant p) (policy : Policy) (earlier : List Problem)
    (h : p r.scanner) : p (r.parse policy earlier).2.scanner :=
  hp.toLasting.parse policy earlier h (hp.peek _ h)

theorem resume (hp : Invariant p) {options : Options} {rest : Remainder}
    (h : p (.ofRemainder { field := '*', terminator := '~' } options.toLimits rest))
    (hr : Reader.resume options rest = .ok (some r)) : p r.scanner := by
  obtain ⟨t, preview, hs, hk, -⟩ := Reader.resume_eq_some hr
  have hb := hp.skipBlank h
  rw [hs] at hb
  have ha := hp.peek Standard.quotedLength hb
  rwa [hk] at ha

end Scanner.Invariant

namespace Cursor.Invariant

variable {p : Cursor → Prop} {r : Reader}

theorem parse (hp : Invariant p) (policy : Policy) (earlier : List Problem)
    (h : p r.scanner.cursor) : p (r.parse policy earlier).2.scanner.cursor :=
  hp.scanner.parse policy earlier h

theorem resume (hp : Invariant p) {options : Options} {rest : Remainder}
    (h : p (.ofRemainder options.bufferCapacity rest))
    (hr : Reader.resume options rest = .ok (some r)) : p r.scanner.cursor :=
  hp.scanner.resume h hr

end Cursor.Invariant

end Edi
