import Edi.Proofs.Scanner.Follow

namespace Edi.Scanner

/-- A relation between scanners that lasts while both are read. They give the same answers, but
that all offsets of the second are greater by the `distance`. -/
structure Parallel (distance : Nat) (R : Scanner → Scanner → Prop) : Prop where
  rules {t u : Scanner} : R t u → t.SameRules u
  offset {t u : Scanner} : R t u → u.offset = t.offset + distance
  next {t u : Scanner} : R t u → Lockstep (Error.shiftOr distance id) R t.next u.next
  back {t u : Scanner} : R t u → Lockstep (Error.shiftOr distance id) R t.back u.back
  begin {t u : Scanner} : R t u →
    R { t with segmentText := [], repeats := false, pendingEnd := none }
      { u with segmentText := [], repeats := false, pendingEnd := none }
  count {t u : Scanner} : R t u → R { t with segmentCount := t.segmentCount + 1 }
    { u with segmentCount := u.segmentCount + 1 }

namespace Parallel

variable {distance : Nat} {R : Scanner → Scanner → Prop} {t u : Scanner} {σ α : Type}
  (hR : Parallel distance R)

include hR

theorem leave {β : Type} {g : α → β} (answer : Except Error α) (h : R t u) :
    Lockstep (Error.shiftOr distance g) R (t.leave answer)
      (u.leave (Error.shiftOr distance g answer)) := by
  obtain ⟨result, t', u', ht, hu, h'⟩ := hR.back h
  simp only [Scanner.leave, ht, hu]
  cases result with
  | error e => exact .intro _ h'
  | ok o => exact .intro _ h'

theorem recognize_of_next {m m' : Recognizer σ α} {f : σ → σ} {g : α → α}
    (hm : ∀ s offset c k, 0 < offset →
      m'.feed (f s) (offset + distance) c k = (m.feed s offset c k).shift distance f g)
    (hf : ∀ s offset, m'.finish (f s) (offset + distance) =
      (m.finish s offset).shift distance id g)
    (s : σ) (h : Lockstep (Error.shiftOr distance id) R t.next u.next) :
    Lockstep (Error.shiftOr distance g) R (t.recognize m s) (u.recognize m' (f s)) := by
  -- The induction is on what there is still to read: the verdict on a character may be to go on.
  induction hb : t.bound using Nat.strongRecOn generalizing s t u with
  | ind n ih =>
    rw [recognize_eq m s t, recognize_eq m' (f s) u]
    obtain ⟨answer, t', u', ht, hu, h'⟩ := h
    simp only [ht, hu]
    cases answer with
    | error e => exact .intro _ h'
    | ok o =>
      cases o with
      | none =>
        have hv := hf s t'.offset
        rw [← hR.offset h'] at hv
        simp only [Error.shiftOr, id, hv]
        cases m.finish s t'.offset with
        | more none => exact none.elim
        | take answer => exact .intro answer h'
        | leave answer => exact hR.leave answer h'
      | some c =>
        have hlt := (next_eq_some ht).1
        have hpos : 0 < t'.offset := next_offset ht ▸ Nat.succ_pos _
        have hv := hm s t'.offset c (t'.delimiters.classify c) hpos
        rw [← hR.offset h'] at hv
        simp only [Error.shiftOr, id, Delimiters.classify_eq (hR.rules h').delimiters, hv]
        cases m.feed s t'.offset c (t'.delimiters.classify c) with
        | more s' => exact ih _ (hb ▸ hlt) s' (hR.next h') rfl
        | take answer => exact .intro answer h'
        | leave answer => exact hR.leave answer h'

theorem skipBlank_of_next (h : Lockstep (Error.shiftOr distance id) R t.next u.next) :
    Lockstep (Error.shiftOr distance id) R t.skipBlank u.skipBlank := by
  apply hR.recognize_of_next (f := id) _ _ () h
  · intro s offset c k _
    dsimp only
    split <;> rfl
  · intro s offset
    rfl

theorem skipBlank (h : R t u) :
    Lockstep (Error.shiftOr distance id) R t.skipBlank u.skipBlank :=
  hR.skipBlank_of_next (hR.next h)

theorem pass (n : Nat) (h : R t u) :
    Lockstep (Error.shiftOr distance id) R (pass n t) (pass n u) := by
  induction n generalizing t u with
  | zero => exact .intro _ h
  | succ n ih =>
    obtain ⟨answer, t', u', ht, hu, h'⟩ := hR.next h
    simp only [Scanner.pass, ht, hu]
    cases answer with
    | error e => exact .intro _ h'
    | ok o =>
      cases o with
      | some c => exact ih h'
      | none =>
        simp only [Error.shiftOr, id, hR.offset h']
        exact .intro _ h'

theorem segment_of_next (h : Lockstep (Error.shiftOr distance id) R t.next u.next) :
    Lockstep (Error.shiftOr distance (Option.map (·.shift distance))) R t.segment u.segment := by
  obtain ⟨answer, t', u', ht, hu, h'⟩ := hR.skipBlank_of_next h
  simp only [Scanner.segment, ht, hu]
  cases answer with
  | error e => exact .intro _ h'
  | ok more =>
    cases more with
    | false => exact .intro _ h'
    | true =>
      have hr := hR.rules h'
      obtain ⟨result, v, w, hv, hw, h''⟩ := hR.recognize_of_next
        (fun p offset c k ho ↦ Segment.recognizer_feed_shift p c k ho)
        (fun p offset ↦ Segment.recognizer_finish_shift p)
        (m := Segment.recognizer t'.delimiters t'.trims t'.maxElementLength t'.offset) (.tag [])
        (hR.next (hR.begin h'))
      simp only [Segment.Part.shift, hr.trims, hr.maxElementLength] at hw
      simp only [Error.shiftOr, id, Segment.recognizer_eq hr.delimiters, hr.trims,
        hr.maxElementLength, hR.offset h', hv, hw]
      cases result with
      | error e => exact .intro _ h''
      | ok s => exact .intro _ (hR.count h'')

theorem segment (h : R t u) :
    Lockstep (Error.shiftOr distance (Option.map (·.shift distance))) R t.segment u.segment :=
  hR.segment_of_next (hR.next h)

end Parallel

end Edi.Scanner
