import Edi.Segment.Recognizer

namespace Edi

/-- The delimiters without what follows the terminator, on which no reading depends. -/
def Delimiters.bare (d : Delimiters) : Delimiters := { d with terminatorSuffix := none }

namespace Scanner

variable {t u v : Scanner} {σ α : Type} {m : Recognizer σ α}

@[simp] theorem next_delimiters (t : Scanner) : t.next.2.delimiters = t.delimiters := by
  simp only [next]
  split <;> rfl

theorem delimiters_of_next {r : Except Error (Option Char)} (h : t.next = (r, u)) :
    u.delimiters = t.delimiters := by
  rw [← t.next_delimiters, h]

@[simp] theorem back_delimiters (t : Scanner) : t.back.2.delimiters = t.delimiters := by
  simp only [back]
  repeat' split
  all_goals rfl

@[simp] theorem leave_delimiters (answer : Except Error α) (t : Scanner) :
    (t.leave answer).2.delimiters = t.delimiters := by
  rw [← t.back_delimiters, leave]
  split <;> simp_all

@[simp] theorem recognize_delimiters (m : Recognizer σ α) (s : σ) (t : Scanner) :
    (t.recognize m s).2.delimiters = t.delimiters := by
  fun_induction recognize m s t with
  | case1 _ _ _ _ hn | case2 _ _ _ hn | case5 _ _ _ _ hn => exact delimiters_of_next hn
  | case3 _ _ _ hn => rw [leave_delimiters, delimiters_of_next hn]
  | case4 _ _ _ _ hn _ _ ih => rw [ih, delimiters_of_next hn]
  | case6 _ _ _ _ hn => rw [leave_delimiters, delimiters_of_next hn]

@[simp] theorem skipBlank_delimiters (t : Scanner) : t.skipBlank.2.delimiters = t.delimiters :=
  recognize_delimiters _ _ _

@[simp] theorem segment_delimiters (t : Scanner) : t.segment.2.delimiters = t.delimiters := by
  simp only [segment]
  split
  · next h => rw [← t.skipBlank_delimiters, h]
  · next h => rw [← t.skipBlank_delimiters, h]
  · next u h =>
    have hr := recognize_delimiters
      (Segment.recognizer u.delimiters u.trims u.maxElementLength u.offset) (.tag [])
      { u with segmentText := [], repeats := false, pendingEnd := none }
    rw [← t.skipBlank_delimiters, h]
    split <;> simp_all

theorem leave_eq_ok {answer : Except Error α} {a : α} (h : t.leave answer = (.ok a, u)) :
    answer = .ok a := by
  simp only [leave] at h
  split at h
  · simp at h
  · exact congrArg Prod.fst h

/-- What holds of the state of a recognizer after each character holds of its answer. -/
theorem recognize_invariant {p : σ → Prop} {q : α → Prop}
    (hm : ∀ s offset c s', p s → m.feed s offset c (t.delimiters.classify c) = .more s' → p s')
    (ht : ∀ s offset c a, p s → (m.feed s offset c (t.delimiters.classify c) = .take (.ok a) ∨
      m.feed s offset c (t.delimiters.classify c) = .leave (.ok a)) → q a)
    (hf : ∀ s offset a, p s →
      (m.finish s offset = .take (.ok a) ∨ m.finish s offset = .leave (.ok a)) → q a)
    {s : σ} {a : α} (hs : p s) (h : t.recognize m s = (.ok a, u)) : q a := by
  fun_induction recognize m s t with
  | case1 => simp at h
  | case2 s t u' hn answer hv =>
    obtain rfl : answer = .ok a := congrArg Prod.fst h
    exact hf s _ a hs (.inl hv)
  | case3 s t u' hn answer hv =>
    obtain rfl := leave_eq_ok h
    exact hf s _ a hs (.inr hv)
  | case4 s t c u' hn s' hv ih =>
    rw [delimiters_of_next hn] at hv ih
    exact ih hm ht (hm s _ c s' hs hv) h
  | case5 s t c u' hn answer hv =>
    rw [delimiters_of_next hn] at hv
    obtain rfl : answer = .ok a := congrArg Prod.fst h
    exact ht s _ c a hs (.inl hv)
  | case6 s t c u' hn answer hv =>
    rw [delimiters_of_next hn] at hv
    obtain rfl := leave_eq_ok h
    exact ht s _ c a hs (.inr hv)

theorem recognize_taken (hm : ∀ s offset c k a, m.feed s offset c k ≠ .leave a)
    (hf : ∀ s offset a, m.finish s offset ≠ .take (.ok a) ∧ m.finish s offset ≠ .leave (.ok a))
    {s : σ} {a : α} (h : t.recognize m s = (.ok a, u)) :
    ∃ (v : Scanner) (c : Char) (s' : σ), v.next = (.ok (some c), u) ∧
      m.feed s' u.offset c (t.delimiters.classify c) = .take (.ok a) := by
  fun_induction recognize m s t with
  | case1 => simp at h
  | case2 s t v hn answer hv =>
    obtain ⟨rfl, rfl⟩ := Prod.mk.inj h
    exact absurd hv (hf _ _ a).1
  | case3 s t v hn answer hv =>
    obtain rfl := leave_eq_ok h
    exact absurd hv (hf _ _ a).2
  | case4 s t c v hn s' hv ih =>
    rw [delimiters_of_next hn] at ih
    exact ih h
  | case5 s t c v hn answer hv =>
    obtain ⟨rfl, rfl⟩ := Prod.mk.inj h
    rw [delimiters_of_next hn] at hv
    exact ⟨t, c, s, hn, hv⟩
  | case6 s t c v hn answer hv => exact absurd hv (hm _ _ _ _ _)

structure SameRules (t u : Scanner) : Prop where
  delimiters : u.delimiters.bare = t.delimiters.bare
  trims : u.trims = t.trims
  maxElementLength : u.maxElementLength = t.maxElementLength

theorem SameRules.trans (h : t.SameRules u) (h' : u.SameRules v) : t.SameRules v :=
  ⟨h'.delimiters.trans h.delimiters, h'.trims.trans h.trims,
    h'.maxElementLength.trans h.maxElementLength⟩

theorem SameRules.symm (h : t.SameRules u) : u.SameRules t :=
  ⟨h.delimiters.symm, h.trims.symm, h.maxElementLength.symm⟩

theorem next_rules (t : Scanner) : t.SameRules t.next.2 := by
  simp only [next]
  split <;> exact ⟨rfl, rfl, rfl⟩

theorem rules_of_next {r : Except Error (Option Char)} (h : t.next = (r, u)) : t.SameRules u := by
  have hr := t.next_rules
  rwa [h] at hr

end Scanner

end Edi
