import Edi.Proofs.Cursor
import Edi.Proofs.Envelope.Preamble

namespace Edi

variable {e : Error}

theorem Delivery.pull_eq_error {share : Nat} {ds rest : List Delivery}
    (h : pull share ds = (.error e, rest)) : ∃ message, e = .io message := by
  induction ds with
  | nil => simp [pull] at h
  | cons d ds ih =>
    cases d with
    | bytes bs => simp [pull] at h
    | interrupted => exact ih h
    | failure message =>
      obtain ⟨he, -⟩ := Prod.mk.inj h
      exact ⟨message, (Except.error.inj he).symm⟩

theorem ByteReader.read_eq_error {n : Nat} {r : ByteReader} (h : (r.read n).1 = .error e) :
    ∃ message, e = .io message := by
  fun_induction ByteReader.read n r with
  | case1 | case2 | case3 | case4 => simp at h
  | case5 r hn d hd he err ds hp =>
    obtain rfl := Except.error.inj h
    exact Delivery.pull_eq_error hp
  | case6 r hn d hd he ds hp ih | case7 r hn d hd he b bs ds hp ih => exact ih h

theorem Source.read_eq_error {n : Nat} {s s' : Source} (h : s.read n = (.error e, s')) :
    ∃ message, e = .io message := by
  cases s with
  | text unread => simp [read] at h
  | bytes r => exact ByteReader.read_eq_error (congrArg Prod.fst h)

namespace Cursor

variable {k j : Cursor} {need : Nat}

/-- The end of input has not been read, or it was pushed back. -/
def Readable (k : Cursor) : Prop := k.last ≠ .endOfInput

theorem fill_eq_error (h : k.fill need = (.error e, j)) : ∃ message, e = .io message := by
  fun_induction fill need k with
  | case1 k hk err s hr =>
    obtain ⟨he, -⟩ := Prod.mk.inj h
    obtain rfl := Except.error.inj he
    exact Source.read_eq_error hr
  | case2 | case4 => simp at h
  | case3 k hk c cs s hr ih => exact ih h

theorem exhausted_of_fill (h : k.fill need = (.ok (), j)) (hl : j.ahead.length < need) :
    j.exhausted := by
  fun_induction fill need k with
  | case1 => simp at h
  | case2 =>
    obtain ⟨-, rfl⟩ := Prod.mk.inj h
    rfl
  | case3 k hk c cs s hr ih => exact ih h
  | case4 k hk =>
    obtain ⟨-, rfl⟩ := Prod.mk.inj h
    by_contra hx
    exact hk ⟨lacks_iff.2 hl, hx⟩

theorem next_eq_error (hk : k.Readable) (h : k.next = (.error e, j)) :
    ∃ message, e = .io message := by
  have hl := fill_last 1 k
  simp only [next] at h
  split at h
  · next err k' hf =>
    obtain ⟨he, -⟩ := Prod.mk.inj h
    obtain rfl := Except.error.inj he
    exact fill_eq_error hf
  · next k' hf =>
    rw [hf] at hl
    split at h
    · simp at h
    · rw [if_neg (hl ▸ hk)] at h
      simp at h

theorem exhausted_of_next (h : k.next = (.ok none, j)) : j.exhausted := by
  simp only [next] at h
  split at h
  · simp at h
  · next k' hf =>
    split at h
    · simp at h
    · next ha =>
      split at h
      · simp at h
      · obtain ⟨-, rfl⟩ := Prod.mk.inj h
        have hl : k'.ahead.length < 1 := by simp [ha]
        have hx : k'.exhausted := exhausted_of_fill hf hl
        exact hx

theorem peek_answered {n : Nat} {answer : Except Error (List Char)} (hk : k.Readable)
    (h : k.peek n = (answer, j)) : (∃ message, answer = .error (.io message)) ∨
      ∃ cs, answer = .ok cs ∧ j.Readable ∧ (cs.length < n → j.exhausted) := by
  have hl := fill_last n k
  simp only [peek] at h
  split at h
  · next e k' hf =>
    obtain ⟨rfl, rfl⟩ := Prod.mk.inj h
    obtain ⟨message, rfl⟩ := fill_eq_error hf
    exact .inl ⟨message, rfl⟩
  · next k' hf =>
    obtain ⟨rfl, rfl⟩ := Prod.mk.inj h
    rw [hf] at hl
    refine .inr ⟨_, rfl, fun hj ↦ hk (hl.symm.trans hj), fun hn ↦ ?_⟩
    rw [List.length_take] at hn
    exact exhausted_of_fill hf (by omega)

theorem back_of_read (h : k.last = .character ∨ k.last = .endOfInput) :
    ∃ j, k.back = (.ok (), j) ∧ j.Readable ∧ j.exhausted = k.exhausted := by
  simp only [back]
  rcases h with h | h
  · rw [h]
    exact ⟨_, rfl, LastRead.noConfusion, rfl⟩
  · rw [h]
    exact ⟨_, rfl, LastRead.noConfusion, rfl⟩

end Cursor

inductive Segment.Malformed : Error → Prop
  | tooLong (limit offset : Nat) : Malformed (.elementTooLong limit offset)
  | untagged (offset : Nat) : Malformed (.malformedSegment offset "empty segment tag")
  | overtagged (offset : Nat) : Malformed (.malformedSegment offset
      "segment tag too long; the delimiters are probably wrong")
  | mistagged (offset : Nat) (c : Char) : Malformed (.malformedSegment offset
      ("unexpected " ++ Text.quoteChar c ++ " in segment tag"))

namespace Segment

variable {d : Delimiters} {trims : Bool} {maxLength start offset : Nat} {p : Part} {c : Char}
  {k : CharClass}

theorem recognizer_feed_error
    (h : (recognizer d trims maxLength start).feed p offset c k = .take (.error e)) :
    Malformed e := by
  cases p with
  | tag letters =>
    simp only [recognizer] at h
    repeat' split at h
    all_goals simp only [reduceCtorEq, Verdict.take.injEq, Except.error.injEq] at h
    · exact h ▸ .untagged start
    · exact h ▸ .untagged start
    · exact h ▸ .overtagged offset
    · exact h ▸ .mistagged (offset - 1) c
  | body b =>
    simp only [recognizer] at h
    repeat' split at h
    all_goals simp only [reduceCtorEq, Verdict.take.injEq, Except.error.injEq] at h
    exact h ▸ .tooLong maxLength offset

theorem Malformed.countsFromHeader (h : Malformed e) : e.countsFromHeader = false := by
  cases h with
  | tooLong | untagged | overtagged => rfl
  | mistagged offset c =>
    -- Whatever the character is, the message begins as none of the flaws does.
    have hf : ∀ message ∈ Preamble.flaws, message.toList.head? ≠ some 'u' := by decide
    have hu : ("unexpected " ++ Text.quoteChar c ++ " in segment tag").toList.head? =
        some 'u' := by simp
    have hm : ("unexpected " ++ Text.quoteChar c ++ " in segment tag") ∉ Preamble.flaws :=
      fun hm ↦ hf _ hm hu
    simpa only [Error.countsFromHeader, List.contains_eq_mem, decide_eq_false_iff_not] using hm

theorem recognizer_finish_eq (d : Delimiters) (trims : Bool) (maxLength start : Nat) (p : Part)
    (offset : Nat) : ∃ expected ∉ Preamble.endings,
      let answer : Except Error Segment := .error (.unexpectedEnd offset expected)
      (recognizer d trims maxLength start).finish p offset = .take answer ∨
        (recognizer d trims maxLength start).finish p offset = .leave answer := by
  cases p with
  | tag letters => exact ⟨"segment terminator", by decide, .inl rfl⟩
  | body b =>
    simp only [recognizer]
    split
    · exact ⟨"character after release", by decide, .inl rfl⟩
    · exact ⟨"segment terminator", by decide, .inr rfl⟩

end Segment

namespace Scanner

variable {t u : Scanner} {σ α : Type} {m : Recognizer σ α} {s : σ} {answer : Except Error α}

/-- How a recognizer comes to its answer: the source fails, a character decides it, or the input
ends. -/
inductive Answered (m : Recognizer σ α) (u : Scanner) : Except Error α → Prop
  | failed (message : String) : Answered m u (.error (.io message))
  | fed {answer : Except Error α} (s : σ) (offset : Nat) (c : Char) (k : CharClass)
      (h : m.feed s offset c k = .take answer ∨ m.feed s offset c k = .leave answer)
      (hu : u.cursor.Readable) : Answered m u answer
  | finished {answer : Except Error α} (s : σ) (offset : Nat)
      (h : m.finish s offset = .take answer ∨ m.finish s offset = .leave answer)
      (hu : u.cursor.exhausted) : Answered m u answer

theorem next_eq_error (ht : t.cursor.Readable) (h : t.next = (.error e, u)) :
    ∃ message, e = .io message := by
  simp only [next] at h
  split at h
  · next hk =>
    obtain ⟨he, -⟩ := Prod.mk.inj h
    obtain rfl := Except.error.inj he
    exact Cursor.next_eq_error ht hk
  · simp at h
  · simp at h

theorem exhausted_of_next (h : t.next = (.ok none, u)) : u.cursor.exhausted := by
  simp only [next] at h
  split at h
  · simp at h
  · next hk =>
    obtain ⟨-, rfl⟩ := Prod.mk.inj h
    exact Cursor.exhausted_of_next hk
  · simp at h

theorem readable_of_next {c : Char} (h : t.next = (.ok (some c), u)) : u.cursor.Readable := by
  simp [Cursor.Readable, (next_eq_some h).2]

theorem peek_answered {n : Nat} {answer : Except Error (List Char)} (ht : t.cursor.Readable)
    (h : t.peek n = (answer, u)) : (∃ message, answer = .error (.io message)) ∨
      ∃ cs, answer = .ok cs ∧ u.cursor.Readable ∧ (cs.length < n → u.cursor.exhausted) := by
  rcases hk : t.cursor.peek n with ⟨x, k⟩
  simp only [peek, hk] at h
  obtain ⟨rfl, rfl⟩ := Prod.mk.inj h
  exact Cursor.peek_answered ht hk

theorem leave_of_read (answer : Except Error α)
    (h : t.cursor.last = .character ∨ t.cursor.last = .endOfInput) :
    ∃ u, t.leave answer = (answer, u) ∧ u.cursor.Readable ∧
      u.cursor.exhausted = t.cursor.exhausted := by
  obtain ⟨j, hj, hr, he⟩ := Cursor.back_of_read h
  rcases h with h | h
  · exact ⟨_, by simp only [leave, back, hj, h]; rfl, hr, he⟩
  · exact ⟨_, by simp only [leave, back, hj, h]; rfl, hr, he⟩

theorem recognize_answered (ht : t.cursor.Readable) (h : t.recognize m s = (answer, u)) :
    Answered m u answer := by
  fun_induction recognize m s t with
  | case1 s t e v hn =>
    obtain ⟨rfl, rfl⟩ := Prod.mk.inj h
    obtain ⟨message, rfl⟩ := next_eq_error ht hn
    exact .failed message
  | case2 s t v hn given hv =>
    obtain ⟨rfl, rfl⟩ := Prod.mk.inj h
    exact .finished s v.offset (.inl hv) (exhausted_of_next hn)
  | case3 s t v hn given hv =>
    obtain ⟨w, hl, -, hx⟩ := leave_of_read given (.inr (next_eq_none hn))
    obtain ⟨rfl, rfl⟩ := Prod.mk.inj (hl.symm.trans h)
    exact .finished s v.offset (.inr hv) (hx ▸ exhausted_of_next hn)
  | case4 s t c v hn s' hv ih => exact ih (readable_of_next hn) h
  | case5 s t c v hn given hv =>
    obtain ⟨rfl, rfl⟩ := Prod.mk.inj h
    exact .fed s v.offset c (v.delimiters.classify c) (.inl hv) (readable_of_next hn)
  | case6 s t c v hn given hv =>
    obtain ⟨w, hl, hr, -⟩ := leave_of_read given (.inl (next_eq_some hn).2)
    obtain ⟨rfl, rfl⟩ := Prod.mk.inj (hl.symm.trans h)
    exact .fed s v.offset c (v.delimiters.classify c) (.inr hv) hr

/-- What a scanner may meet in place of a segment, and how it is left. -/
inductive Fault (u : Scanner) : Error → Prop
  | io (message : String) : Fault u (.io message)
  | ended (offset : Nat) {expected : String} (h : expected ∉ Preamble.endings)
      (hu : u.cursor.exhausted) : Fault u (.unexpectedEnd offset expected)
  | malformed {e : Error} (h : Segment.Malformed e) : Fault u e

theorem skipBlank_answered {answer : Except Error Bool} (ht : t.cursor.Readable)
    (h : t.skipBlank = (answer, u)) : (∃ message, answer = .error (.io message)) ∨
      answer = .ok true ∧ u.cursor.Readable ∨ answer = .ok false ∧ u.cursor.exhausted := by
  cases recognize_answered ht h with
  | failed message => exact .inl ⟨message, rfl⟩
  | fed _ _ c _ hv hu =>
    rcases hv with hv | hv
    all_goals
      dsimp only at hv
      split at hv
      all_goals simp only [reduceCtorEq, Verdict.leave.injEq] at hv
    exact .inr (.inl ⟨hv.symm, hu⟩)
  | finished _ _ hv hu =>
    simp only [reduceCtorEq, Verdict.leave.injEq, false_or] at hv
    exact .inr (.inr ⟨hv.symm, hu⟩)

theorem segment_answered {answer : Except Error (Option Segment)} (ht : t.cursor.Readable)
    (h : t.segment = (answer, u)) : (∃ e, answer = .error e ∧ u.Fault e) ∨
      (∃ s, answer = .ok (some s) ∧ u.cursor.Readable) ∨
      answer = .ok none ∧ u.cursor.exhausted := by
  simp only [segment] at h
  rcases hb : t.skipBlank with ⟨blank, v⟩
  rcases skipBlank_answered ht hb with ⟨message, rfl⟩ | ⟨rfl, hv⟩ | ⟨rfl, hv⟩
  · simp only [hb] at h
    obtain ⟨rfl, rfl⟩ := Prod.mk.inj h
    exact .inl ⟨_, rfl, .io message⟩
  · simp only [hb] at h
    have hc : ({ v with segmentText := [], repeats := false, pendingEnd := none } :
      Scanner).cursor.Readable := hv
    split at h
    · next e w hr =>
      obtain ⟨rfl, rfl⟩ := Prod.mk.inj h
      refine .inl ⟨e, rfl, ?_⟩
      cases recognize_answered hc hr with
      | failed message => exact .io message
      | fed p offset c k hm hw =>
        have hl := Segment.recognizer_feed_ne_leave v.delimiters v.trims v.maxElementLength
          v.offset p offset c k (.error e)
        exact .malformed (Segment.recognizer_feed_error (hm.resolve_right hl))
      | finished p offset hm hw =>
        obtain ⟨expected, he, hf⟩ := Segment.recognizer_finish_eq v.delimiters v.trims
          v.maxElementLength v.offset p offset
        rcases hf with hf | hf <;> rcases hm with hm | hm <;>
          simp only [hf, reduceCtorEq, Verdict.take.injEq, Verdict.leave.injEq,
            Except.error.injEq] at hm
        · exact hm ▸ .ended offset he hw
        · exact hm ▸ .ended offset he hw
    · next s w hr =>
      obtain ⟨rfl, rfl⟩ := Prod.mk.inj h
      refine .inr (.inl ⟨s, rfl, ?_⟩)
      cases recognize_answered hc hr with
      | fed _ _ _ _ _ hw => exact hw
      | finished p offset hm hw =>
        obtain ⟨hx, hx'⟩ := Segment.recognizer_finish_ne_ok v.delimiters v.trims
          v.maxElementLength v.offset p offset s
        exact absurd hm (not_or.2 ⟨hx, hx'⟩)
  · simp only [hb] at h
    obtain ⟨rfl, rfl⟩ := Prod.mk.inj h
    exact .inr (.inr ⟨rfl, hv⟩)

theorem pass_answered {n : Nat} {answer : Except Error Unit} (ht : t.cursor.Readable)
    (h : pass n t = (answer, u)) :
    (∃ e, answer = .error e ∧ u.Fault e) ∨ answer = .ok () ∧ u.cursor.Readable := by
  induction n generalizing t with
  | zero =>
    obtain ⟨rfl, rfl⟩ := Prod.mk.inj h
    exact .inr ⟨rfl, ht⟩
  | succ n ih =>
    simp only [pass] at h
    split at h
    · next c v hn => exact ih (readable_of_next hn) h
    · next v hn =>
      obtain ⟨rfl, rfl⟩ := Prod.mk.inj h
      exact .inl ⟨_, rfl, .ended _ (by decide) (exhausted_of_next hn)⟩
    · next e v hn =>
      obtain ⟨rfl, rfl⟩ := Prod.mk.inj h
      obtain ⟨message, rfl⟩ := next_eq_error ht hn
      exact .inl ⟨_, rfl, .io message⟩

theorem passSegment_answered {n : Nat} {answer : Except Error Unit} (ht : t.cursor.Readable)
    (h : t.passSegment n = (answer, u)) :
    (∃ e, answer = .error e ∧ u.Fault e) ∨ answer = .ok () ∧ u.cursor.Readable := by
  simp only [passSegment] at h
  rcases hp : pass n { t with segmentText := [] } with ⟨x, v⟩
  have ha := pass_answered (t := { t with segmentText := [] }) ht hp
  rw [hp] at h
  cases x with
  | error e =>
    obtain ⟨rfl, rfl⟩ := Prod.mk.inj h
    exact ha
  | ok _ =>
    obtain ⟨rfl, rfl⟩ := Prod.mk.inj h
    obtain ⟨-, hv⟩ := ha.resolve_left (by simp)
    exact .inr ⟨rfl, hv⟩

end Scanner

end Edi
