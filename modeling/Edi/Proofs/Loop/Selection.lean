import Edi.Proofs.Loop.Context

namespace Edi

/-- A rule is one for the segment `tag`, and its context fits a path so well. -/
structure LoopRule.Fits (tag path : String) (m : ContextMatch) (r : LoopRule) : Prop where
  segment : r.segment = tag
  context : r.contextMatch? path = some m

namespace LoopTable

variable {cs : List (ContextMatch × LoopRule)} {c : ContextMatch × LoopRule} {t : LoopTable}
  {tag path : String} {r : LoopRule}

theorem best_eq_none_iff : best cs = none ↔ cs = [] := by
  cases cs with
  | nil => simp [best]
  | cons c cs =>
    simp only [best]
    split
    · simp
    · split <;> simp

theorem best_eq_some_iff : best cs = some c ↔ ∃ front behind, cs = front ++ c :: behind ∧
    (∀ d ∈ front, d.1.rank < c.1.rank) ∧ ∀ d ∈ behind, d.1.rank ≤ c.1.rank := by
  induction cs generalizing c with
  | nil => simp [best]
  | cons d ds ih =>
    simp only [best]
    constructor
    · intro h
      cases hb : best ds with
      | none =>
        obtain rfl := best_eq_none_iff.1 hb
        obtain rfl : d = c := by simpa [best] using h
        exact ⟨[], [], rfl, by simp, by simp⟩
      | some b =>
        obtain ⟨front, behind, rfl, hfront, hbehind⟩ := ih.1 hb
        simp only [hb] at h
        split at h
        · next hlt =>
          obtain rfl := Option.some.inj h
          exact ⟨d :: front, behind, rfl, List.forall_mem_cons.2 ⟨hlt, hfront⟩, hbehind⟩
        · next hle =>
          obtain rfl := Option.some.inj h
          refine ⟨[], front ++ b :: behind, rfl, by simp, fun x hx ↦ ?_⟩
          rcases List.mem_append.1 hx with hx | hx
          · have := hfront x hx
            omega
          · rcases List.mem_cons.1 hx with rfl | hx
            · omega
            · have := hbehind x hx
              omega
    · rintro ⟨front, behind, he, hfront, hbehind⟩
      cases front with
      | nil =>
        obtain ⟨rfl, rfl⟩ := List.cons.inj he
        cases hb : best ds with
        | none => rfl
        | some b =>
          obtain ⟨front, rest, rfl, -⟩ := ih.1 hb
          have := hbehind b (by simp)
          simp only [Nat.not_lt.2 this, ↓reduceIte]
      | cons x front =>
        obtain ⟨rfl, rfl⟩ := List.cons.inj he
        obtain ⟨hd, hfront⟩ := List.forall_mem_cons.1 hfront
        rw [ih.2 ⟨front, behind, rfl, hfront, hbehind⟩]
        simp only [hd, ↓reduceIte]

def candidate? (tag path : String) (r : LoopRule) : Option (ContextMatch × LoopRule) :=
  if r.segment = tag then (r.contextMatch? path).map (·, r) else none

theorem candidate?_eq_some_iff {m : ContextMatch} {s : LoopRule} :
    candidate? tag path r = some (m, s) ↔ r.Fits tag path m ∧ r = s := by
  simp only [candidate?, Option.ite_none_right_eq_some, Option.map_eq_some_iff, Prod.mk.injEq]
  constructor
  · rintro ⟨hs, _, hm, rfl, rfl⟩
    exact ⟨⟨hs, hm⟩, rfl⟩
  · rintro ⟨h, rfl⟩
    exact ⟨h.segment, m, h.context, rfl, rfl⟩

theorem candidate?_of_fits {m : ContextMatch} (h : r.Fits tag path m) :
    candidate? tag path r = some (m, r) :=
  candidate?_eq_some_iff.2 ⟨h, rfl⟩

theorem forall_candidate_iff (rules : List LoopRule) (q : ContextMatch → Prop) :
    (∀ d ∈ rules.filterMap (candidate? tag path), q d.1) ↔
      ∀ s ∈ rules, ∀ l, s.Fits tag path l → q l := by
  constructor
  · intro h s hs l hl
    exact h (l, s) (List.mem_filterMap.2 ⟨s, hs, candidate?_of_fits hl⟩)
  · intro h d hd
    obtain ⟨s, hs, hc⟩ := List.mem_filterMap.1 hd
    exact h s hs d.1 (candidate?_eq_some_iff.1 hc).1

theorem select?_eq (tag path : String) (t : LoopTable) :
    t.select? tag path = (best (t.rules.filterMap (candidate? tag path))).map Prod.snd := by
  have hc : candidate? tag path = fun r ↦
      if decide (r.segment = tag) then (r.contextMatch? path).map (·, r) else none := by
    funext r
    simp only [candidate?, decide_eq_true_eq]
  rw [select?, List.filterMap_filter, hc]

theorem select?_eq_some_iff : t.select? tag path = some r ↔ ∃ front behind m,
    t.rules = front ++ r :: behind ∧ r.Fits tag path m ∧
      (∀ s ∈ front, ∀ l, s.Fits tag path l → l.rank < m.rank) ∧
      ∀ s ∈ behind, ∀ l, s.Fits tag path l → l.rank ≤ m.rank := by
  rw [select?_eq, Option.map_eq_some_iff]
  constructor
  · rintro ⟨⟨m, r⟩, hb, rfl⟩
    obtain ⟨fits, others, he, hfits, hothers⟩ := best_eq_some_iff.1 hb
    obtain ⟨front, rest, hr, rfl, hrest⟩ := List.filterMap_eq_append_iff.1 he
    obtain ⟨skipped, s, behind, rfl, hskipped, hs, rfl⟩ := List.filterMap_eq_cons_iff.1 hrest
    obtain ⟨hfit, rfl⟩ := candidate?_eq_some_iff.1 hs
    refine ⟨front ++ skipped, behind, m, by rw [hr, List.append_assoc], hfit, ?_,
      (forall_candidate_iff behind (·.rank ≤ m.rank)).1 hothers⟩
    intro x hx l hl
    rcases List.mem_append.1 hx with hx | hx
    · exact (forall_candidate_iff front (·.rank < m.rank)).1 hfits x hx l hl
    · exact absurd (hskipped x hx) (by simp [candidate?_of_fits hl])
  · rintro ⟨front, behind, m, hr, hfit, hfront, hbehind⟩
    refine ⟨(m, r), best_eq_some_iff.2 ⟨front.filterMap (candidate? tag path),
      behind.filterMap (candidate? tag path), ?_,
      (forall_candidate_iff front (·.rank < m.rank)).2 hfront,
      (forall_candidate_iff behind (·.rank ≤ m.rank)).2 hbehind⟩, rfl⟩
    rw [hr, List.filterMap_append, List.filterMap_cons_some (candidate?_of_fits hfit)]

theorem select?_isSome_iff :
    (t.select? tag path).isSome ↔ ∃ r ∈ t.rules, ∃ m, r.Fits tag path m := by
  constructor
  · intro h
    obtain ⟨r, hr⟩ := Option.isSome_iff_exists.1 h
    obtain ⟨front, behind, m, he, hfit, -⟩ := select?_eq_some_iff.1 hr
    exact ⟨r, by simp [he], m, hfit⟩
  · rintro ⟨r, hr, m, hm⟩
    rw [select?_eq, Option.isSome_map, Option.isSome_iff_ne_none, ne_eq, best_eq_none_iff]
    exact List.ne_nil_of_mem (List.mem_filterMap.2 ⟨r, hr, candidate?_of_fits hm⟩)

open LoopNesting (openLoops renderPath)

/-- At the path of open loops, of which each has a name without a slash, the rule is selected that
is the first of those that fit best. The context for everywhere always fits, though worst of all.
One that lists names fits best if these are the open loops, and less well if they are some of
those around; the root, which lists none, always fits. No other context ever fits. -/
theorem select?_exact (t : LoopTable) (tag : String) (frames : List Frame)
    (h : ∀ name ∈ openLoops frames, LoopRule.IsName name) :
    let path := renderPath frames
    ((t.select? tag path).isSome ↔ ∃ r ∈ t.rules, ∃ m, r.Fits tag path m) ∧
    (∀ r, t.select? tag path = some r ↔ ∃ front behind m,
      t.rules = front ++ r :: behind ∧ r.Fits tag path m ∧
        (∀ s ∈ front, ∀ l, s.Fits tag path l → l.rank < m.rank) ∧
        ∀ s ∈ behind, ∀ l, s.Fits tag path l → l.rank ≤ m.rank) ∧
    ∀ r : LoopRule,
      (r.context = "*" → r.contextMatch? path = some .wildcard) ∧
      (∀ names, LoopRule.Lists r.context names → r.contextMatch? path =
        if names = openLoops frames then some .exact
        else if names <+: openLoops frames then some .ancestor
        else none) ∧
      (r.context ≠ "*" → (∀ names, ¬LoopRule.Lists r.context names) →
        r.contextMatch? path = none) := by
  intro path
  have hpath : path = String.ofList (LoopRule.pathOf (openLoops frames)) :=
    LoopNesting.renderPath_eq_pathOf frames
  refine ⟨select?_isSome_iff, fun r ↦ select?_eq_some_iff, fun r ↦ ⟨fun hc ↦ ?_, fun names hl ↦ ?_,
    fun hc hl ↦ ?_⟩⟩
  · simp [LoopRule.contextMatch?, LoopRule.anyContext, hc]
  · rw [hpath]
    exact LoopRule.contextMatch?_of_lists hl h
  · refine Option.eq_none_iff_forall_ne_some.2 fun m hm ↦ ?_
    obtain ⟨names, hn⟩ := LoopRule.lists_of_contextMatch? h hc (hpath ▸ hm)
    exact hl names hn

/-- Two contexts are those of the open loops, one is that of the loop around, and one lists a name
that is but the beginning of another. -/
theorem select?_exact_nested :
    let rule (name context : String) : LoopRule := ⟨some name, "REF", 3, context⟩
    let table : LoopTable :=
      ⟨[rule "A" "*", rule "B" "/H", rule "C" "/HL//", rule "D" "/HL/LIN/", rule "E" "/HL/LIN"]⟩
    let frames : List Frame := [⟨some "LIN", 2⟩, ⟨none, 2⟩, ⟨some "HL", 1⟩]
    let path := renderPath frames
    (∀ name ∈ openLoops frames, LoopRule.IsName name) ∧ path = "/HL/LIN" ∧
      table.select? "REF" path = some (rule "D" "/HL/LIN/") ∧
      (rule "B" "/H").contextMatch? path = none ∧
      (rule "C" "/HL//").contextMatch? path = some .ancestor := by
  intro rule table frames path
  have hnames : ∀ name ∈ openLoops frames, LoopRule.IsName name := by
    unfold LoopRule.IsName
    decide
  obtain ⟨-, hselect, hmatch⟩ := select?_exact table "REF" frames hnames
  have hlists (name context : String) (slashes : Nat) (hn : LoopRule.IsName name)
      (hc : context.toList = LoopRule.written [name] ++ List.replicate slashes '/') :
      LoopRule.Lists context [name] := ⟨by simpa using hn, slashes, hc⟩
  let front := [rule "A" "*", rule "B" "/H", rule "C" "/HL//"]
  have hfront : ∀ s ∈ front, s.contextMatch? path ≠ some .exact := by decide
  refine ⟨hnames, by decide, (hselect _).2 ⟨front, [rule "E" "/HL/LIN"], .exact, rfl,
    ⟨rfl, by decide⟩, fun s hs l hl ↦ ?_, fun s hs l hl ↦ ?_⟩, ?_, ?_⟩
  · cases l with
    | exact => exact absurd hl.context (hfront s hs)
    | _ => decide
  · cases l <;> decide
  · exact (hmatch (rule "B" "/H")).2.1 ["H"]
      (hlists "H" "/H" 0 (by unfold LoopRule.IsName; decide) (by decide))
  · exact (hmatch (rule "C" "/HL//")).2.1 ["HL"]
      (hlists "HL" "/HL//" 2 (by unfold LoopRule.IsName; decide) (by decide))

end LoopTable

end Edi
