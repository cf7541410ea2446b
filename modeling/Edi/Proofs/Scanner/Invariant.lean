import Edi.Proofs.Token
import Edi.Segment.Recognizer

namespace Edi

/-- A property of cursors that lasts, whatever is done with a cursor and whether or not it
succeeds. -/
structure Cursor.Invariant (p : Cursor → Prop) : Prop where
  next {k : Cursor} : p k → p k.next.2
  back {k : Cursor} : p k → p k.back.2
  peek {k : Cursor} (n : Nat) : p k → p (k.peek n).2

/-- A property of scanners that lasts while characters are read and put back, and does not bear on
the segment at hand. -/
structure Scanner.Lasting (p : Scanner → Prop) : Prop where
  next {t : Scanner} : p t → p t.next.2
  back {t : Scanner} : p t → p t.back.2
  frame {t u : Scanner} : p t → u.cursor = t.cursor → u.retained = t.retained →
    u.origin = t.origin → p u

structure Scanner.Invariant (p : Scanner → Prop) : Prop extends Lasting p where
  peek {t : Scanner} (n : Nat) : p t → p (t.peek n).2

namespace Scanner.Lasting

variable {p : Scanner → Prop} {t u : Scanner} {σ α : Type} {m : Recognizer σ α}

theorem of_next (hp : Lasting p) (h : p t) {r : Except Error (Option Char)}
    (hn : t.next = (r, u)) : p u := by
  have hu := hp.next h
  rwa [hn] at hu

theorem leave (hp : Lasting p) (answer : Except Error α) (h : p t) :
    p (t.leave answer).2 := by
  have hb := hp.back h
  simp only [Scanner.leave]
  split <;> next hk => rwa [hk] at hb

theorem recognize (hp : Lasting p) (m : Recognizer σ α) (s : σ) (h : p t) :
    p (t.recognize m s).2 := by
  fun_induction Scanner.recognize m s t with
  | case1 _ _ _ _ hn | case2 _ _ _ hn | case5 _ _ _ _ hn => exact hp.of_next h hn
  | case3 _ _ _ hn => exact hp.leave _ (hp.of_next h hn)
  | case4 _ _ _ _ hn _ _ ih => exact ih (hp.of_next h hn)
  | case6 _ _ _ _ hn => exact hp.leave _ (hp.of_next h hn)

theorem skipBlank (hp : Lasting p) (h : p t) : p t.skipBlank.2 := hp.recognize _ _ h

theorem pass (hp : Lasting p) (n : Nat) (h : p t) : p (Scanner.pass n t).2 := by
  induction n generalizing t with
  | zero => exact h
  | succ n ih =>
    simp only [Scanner.pass]
    split
    · next hn => exact ih (hp.of_next h hn)
    · next hn => exact hp.of_next h hn
    · next hn => exact hp.of_next h hn

theorem passSegment (hp : Lasting p) (n : Nat) (h : p t) : p (t.passSegment n).2 := by
  have hc : p { t with segmentText := [] } := hp.frame h rfl rfl rfl
  have hs := hp.pass n hc
  simp only [Scanner.passSegment]
  split <;> next hk =>
    rw [hk] at hs
    exact hp.frame hs rfl rfl rfl

theorem segment (hp : Lasting p) (h : p t) : p t.segment.2 := by
  have hs := hp.skipBlank h
  simp only [Scanner.segment]
  split
  · next hk => rwa [hk] at hs
  · next hk => rwa [hk] at hs
  · next u hk =>
    rw [hk] at hs
    have hc : p { u with segmentText := [], repeats := false, pendingEnd := none } :=
      hp.frame hs rfl rfl rfl
    have hr := hp.recognize
      (Segment.recognizer u.delimiters u.trims u.maxElementLength u.offset) (.tag []) hc
    split <;> next hk =>
      rw [hk] at hr
      exact hp.frame hr rfl rfl rfl

theorem token (hp : Lasting p) (h : p t) : p t.token.2 := by
  have hc : p { t with repeats := false } := hp.frame h rfl rfl rfl
  have hr := hp.recognize (Occurrence.recognizer t.trims t.maxElementLength t.repeats) {} hc
  simp only [Scanner.token]
  split
  · exact hp.frame h rfl rfl rfl
  · split <;> next hk =>
      rw [hk] at hr
      exact hp.frame hr rfl rfl rfl

theorem simpleValue (hp : Lasting p) (h : p t) : p t.simpleValue.2 := by
  rw [simpleValue_eq]
  exact hp.token h

theorem compositeElement (hp : Lasting p) (h : p t) : p t.compositeElement.2 := by
  rw [compositeElement_eq]
  exact hp.token h

theorem of_cursor {p : Cursor → Prop} (hn : ∀ k, p k → p k.next.2) (hb : ∀ k, p k → p k.back.2) :
    Lasting fun t ↦ p t.cursor where
  next {t} h := by
    have hk := hn t.cursor h
    simp only [Scanner.next]
    split <;> next hc => rwa [hc] at hk
  back {t} h := by
    have hk := hb t.cursor h
    simp only [Scanner.back]
    split
    · next hc => rwa [hc] at hk
    · next hc =>
      rw [hc] at hk
      split <;> exact hk
  frame h hc _ _ := by rwa [hc]

end Scanner.Lasting

theorem Scanner.Invariant.lookahead {p : Scanner → Prop} {t : Scanner} (hp : Invariant p) (n : Nat)
    (h : p t) : p (t.lookahead n).2 := by
  have hl := hp.peek n h
  simp only [Scanner.lookahead]
  split <;> next hk => rwa [hk] at hl

theorem Cursor.Invariant.scanner {p : Cursor → Prop} (hp : Invariant p) :
    Scanner.Invariant fun t ↦ p t.cursor where
  toLasting := .of_cursor (fun _ ↦ hp.next) fun _ ↦ hp.back
  peek n h := hp.peek n h

end Edi
