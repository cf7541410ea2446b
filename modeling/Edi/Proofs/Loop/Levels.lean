import Edi.Loop.Nesting
import Mathlib.Data.Finset.Card

namespace Edi

namespace LoopRule

/-- A rule that opens a frame closes those at its level and deeper, a rule that opens none only
those that are deeper. -/
def closes (r : LoopRule) (f : Frame) : Bool :=
  if r.loop.isSome then r.level ≤ f.level else r.level < f.level

def frame? (r : LoopRule) : Option Frame :=
  r.loop.map fun name ↦
    { name := if name = anonymous then none else some name, level := r.level }

theorem level_of_frame? {r : LoopRule} {f : Frame} (h : r.frame? = some f) : f.level = r.level := by
  obtain ⟨_, -, rfl⟩ := Option.map_eq_some_iff.1 h
  rfl

end LoopRule

namespace LoopTable

def levels (t : LoopTable) : Finset Nat := (t.rules.map (·.level)).toFinset

theorem best_mem {cs : List (ContextMatch × LoopRule)} {c : ContextMatch × LoopRule}
    (h : best cs = some c) : c ∈ cs := by
  induction cs generalizing c with
  | nil => simp [best] at h
  | cons d ds ih =>
    simp only [best] at h
    cases hb : best ds with
    | none => simp_all
    | some b =>
      simp only [hb] at h
      split at h <;> cases h
      · exact .tail _ (ih hb)
      · exact .head _

theorem select?_mem {t : LoopTable} {segment path : String} {r : LoopRule}
    (h : t.select? segment path = some r) : r ∈ t.rules := by
  obtain ⟨c, hc, rfl⟩ := Option.map_eq_some_iff.1 h
  obtain ⟨r, hr, hm⟩ := List.mem_filterMap.1 (best_mem hc)
  obtain ⟨_, -, rfl⟩ := Option.map_eq_some_iff.1 hm
  exact (List.mem_filter.1 hr).1

end LoopTable

namespace LoopNesting

def startEvents (opened : List Frame) : List Event :=
  (opened.filterMap Frame.name).map fun name ↦
    .elementStart ElementName.loop (.ofList [("Id", name)])

/-- Frames, the innermost first, at deeper levels than those around them. Only frames at level 0
may stand in one another. -/
def Graded (frames : List Frame) : Prop :=
  frames.Pairwise fun inner outer ↦
    outer.level < inner.level ∨ inner.level = 0 ∧ outer.level = 0

namespace Graded

variable {frames : List Frame}

theorem deeper_eq (h : Graded frames) (level : Nat) :
    frames.takeWhile (level < ·.level) = frames.filter (level < ·.level) ∧
      frames.dropWhile (level < ·.level) = frames.filter fun f ↦ !decide (level < f.level) := by
  induction frames with
  | nil => exact ⟨rfl, rfl⟩
  | cons f fs ih =>
    obtain ⟨hf, hfs⟩ := List.pairwise_cons.1 h
    by_cases hl : level < f.level
    · simp [hl, ih hfs]
    · have hdeep : ∀ g ∈ fs, ¬level < g.level := fun g hg ↦ by
        have := hf g hg
        omega
      have hnone : fs.filter (level < ·.level) = [] := by simpa using hdeep
      have hall : fs.filter (fun f ↦ !decide (level < f.level)) = fs := by simpa using hdeep
      simp only [hl, decide_false, Bool.not_false, List.takeWhile_cons, List.dropWhile_cons,
        List.filter_cons, Bool.false_eq_true, ↓reduceIte, hnone, hall, and_self]

theorem cons {f : Frame} (h : Graded frames)
    (hf : ∀ g ∈ frames, g.level < f.level ∨ g.level = 0) : Graded (f :: frames) := by
  refine List.pairwise_cons.2 ⟨fun g hg ↦ ?_, h⟩
  have := hf g hg
  omega

theorem length_le (h : Graded frames) :
    frames.length ≤
      (frames.map (·.level)).toFinset.card + (frames.countP (·.level = 0) - 1) := by
  induction frames with
  | nil => exact Nat.zero_le _
  | cons f fs ih =>
    obtain ⟨hf, hfs⟩ := List.pairwise_cons.1 h
    by_cases hl : f.level = 0
    · have hall : (f :: fs).countP (·.level = 0) = (f :: fs).length := by
        refine List.countP_eq_length.2 fun g hg ↦ ?_
        rcases List.mem_cons.1 hg with rfl | hg
        · simpa using hl
        · have := hf g hg
          exact decide_eq_true (by omega)
      have hpos : 0 < ((f :: fs).map (·.level)).toFinset.card :=
        Finset.card_pos.2 ⟨f.level, by simp⟩
      omega
    · have hnew : f.level ∉ (fs.map (·.level)).toFinset := by
        simp only [List.mem_toFinset, List.mem_map, not_exists, not_and]
        intro g hg he
        have := hf g hg
        omega
      have := ih hfs
      simp only [List.map_cons, List.toFinset_cons, Finset.card_insert_of_notMem hnew,
        List.length_cons, List.countP_cons, hl, decide_false]
      simp only [Bool.false_eq_true, ↓reduceIte]
      omega

end Graded

variable {n : LoopNesting} {table : LoopTable}

/-- A rule closes the frames that it is to close but for those at level 0, and opens its own. -/
theorem apply_graded (r : LoopRule) (h : Graded n.frames) :
    let closed := n.frames.filter fun f ↦ r.closes f && 0 < f.level
    let kept := n.frames.filter fun f ↦ !(r.closes f && 0 < f.level)
    n.frames = closed ++ kept ∧
      (n.apply r).2.1 = endEvents closed ++ startEvents r.frame?.toList ∧
      (n.apply r).2.2.frames = r.frame?.toList ++ kept := by
  cases hr : r.loop with
  | none =>
    have hc : (fun f : Frame ↦ r.closes f && decide (0 < f.level)) =
        fun f ↦ decide (r.level < f.level) := by
      funext f
      simp only [LoopRule.closes, hr, Option.isSome_none, Bool.false_eq_true, ↓reduceIte,
        ← Bool.decide_and, decide_eq_decide]
      omega
    simp only [funext_iff.1 hc, ← (h.deeper_eq r.level).1, ← (h.deeper_eq r.level).2,
      List.takeWhile_append_dropWhile, LoopRule.frame?, hr, Option.map_none, Option.toList_none,
      List.nil_append, true_and, apply]
    split
    · next he =>
      have hnil := List.isEmpty_iff.1 he
      have hall := List.takeWhile_append_dropWhile (p := fun f : Frame ↦ decide (r.level < f.level))
        (l := n.frames)
      rw [hnil, List.nil_append] at hall
      exact ⟨by rw [hnil]; rfl, hall.symm⟩
    · exact ⟨(List.append_nil _).symm, rfl⟩
  | some name =>
    have hc : (fun f : Frame ↦ r.closes f && decide (0 < f.level)) =
        fun f ↦ decide (r.level - 1 < f.level) := by
      funext f
      simp only [LoopRule.closes, hr, Option.isSome_some, ↓reduceIte, ← Bool.decide_and,
        decide_eq_decide]
      omega
    simp only [funext_iff.1 hc, ← (h.deeper_eq (r.level - 1)).1,
      ← (h.deeper_eq (r.level - 1)).2, List.takeWhile_append_dropWhile, LoopRule.frame?, hr,
      Option.map_some, Option.toList_some, List.cons_append, List.nil_append, true_and, apply]
    split
    · exact ⟨(List.append_nil _).symm, rfl⟩
    · exact ⟨rfl, rfl⟩

def after (table : LoopTable) (tags : List String) : LoopNesting :=
  tags.foldl (fun n tag ↦ (n.transition tag).2.2) (start (some table))

/-- What holds of the frames that the rules of a table have opened. -/
structure Ruled (table : LoopTable) (n : LoopNesting) : Prop where
  table_eq : n.table = some table
  graded : Graded n.frames
  rules : ∀ f ∈ n.frames, ∃ r ∈ table.rules, r.frame? = some f

namespace Ruled

theorem start (table : LoopTable) : Ruled table (start (some table)) :=
  ⟨rfl, .nil, by simp [LoopNesting.start]⟩

theorem apply {r : LoopRule} (h : Ruled table n) (hr : r ∈ table.rules) :
    Ruled table (n.apply r).2.2 := by
  obtain ⟨-, -, hframes⟩ := apply_graded r h.graded
  refine ⟨?_, ?_, ?_⟩
  · simp only [LoopNesting.apply]
    repeat' split
    all_goals exact h.table_eq
  · rw [hframes]
    cases hf : r.frame? with
    | none => exact h.graded.filter _
    | some f =>
      refine Graded.cons (h.graded.filter _) fun g hg ↦ ?_
      obtain ⟨name, hn, -⟩ := Option.map_eq_some_iff.1 hf
      have hopen := (List.mem_filter.1 hg).2
      simp only [LoopRule.closes, hn, Option.isSome_some, ↓reduceIte, ← Bool.decide_and,
        Bool.not_eq_true', decide_eq_false_iff_not] at hopen
      rw [LoopRule.level_of_frame? hf]
      omega
  · rw [hframes]
    intro f hf
    rcases List.mem_append.1 hf with hf | hf
    · exact ⟨r, hr, by simpa using hf⟩
    · exact h.rules f (List.mem_filter.1 hf).1

theorem transition (h : Ruled table n) (tag : String) : Ruled table (n.transition tag).2.2 := by
  simp only [LoopNesting.transition, h.table_eq, Option.bind_some]
  cases hs : table.select? tag n.path with
  | none => exact h
  | some r => exact h.apply (LoopTable.select?_mem hs)

theorem foldl (h : Ruled table n) (tags : List String) :
    Ruled table (tags.foldl (fun n tag ↦ (n.transition tag).2.2) n) := by
  induction tags generalizing n with
  | nil => exact h
  | cons tag tags ih => exact ih (h.transition tag)

theorem after (table : LoopTable) (tags : List String) : Ruled table (after table tags) :=
  (start table).foldl tags

theorem level_mem (h : Ruled table n) {f : Frame} (hf : f ∈ n.frames) : f.level ∈ table.levels := by
  obtain ⟨r, hr, he⟩ := h.rules f hf
  rw [LoopRule.level_of_frame? he]
  exact List.mem_toFinset.2 (List.mem_map_of_mem hr)

theorem depth_le (h : Ruled table n) :
    n.depth ≤ table.levels.card + (n.frames.countP (·.level = 0) - 1) := by
  have hsub : (n.frames.map (·.level)).toFinset ⊆ table.levels := fun level hl ↦ by
    obtain ⟨f, hf, rfl⟩ := List.mem_map.1 (List.mem_toFinset.1 hl)
    exact h.level_mem hf
  exact h.graded.length_le.trans (Nat.add_le_add_right (Finset.card_le_card hsub) _)

theorem level_pos (h : Ruled table n) (hpos : ∀ r ∈ table.rules, r.frame?.isSome → 0 < r.level)
    {f : Frame} (hf : f ∈ n.frames) : 0 < f.level := by
  obtain ⟨r, hr, he⟩ := h.rules f hf
  rw [LoopRule.level_of_frame? he]
  exact hpos r hr (Option.isSome_of_eq_some he)

end Ruled

/-- A segment without a rule changes nothing. A rule closes the innermost frames: all those that it
is to close, but none at level 0. So frames are at deeper levels than those around them, but for
frames at level 0, and where no rule opens one of these every frame is. -/
theorem transition_after (table : LoopTable) (tags : List String) (tag : String) :
    let n := after table tags
    let events := (n.transition tag).2.1
    let m := (n.transition tag).2.2
    (table.select? tag n.path = none → m = n ∧ events = []) ∧
      (∀ r, table.select? tag n.path = some r →
        let closed := n.frames.filter fun f ↦ r.closes f && 0 < f.level
        let kept := n.frames.filter fun f ↦ !(r.closes f && 0 < f.level)
        n.frames = closed ++ kept ∧
          events = endEvents closed ++ startEvents r.frame?.toList ∧
          m.frames = r.frame?.toList ++ kept) ∧
      Graded n.frames ∧
      n.depth ≤ table.levels.card + (n.frames.countP (·.level = 0) - 1) ∧
      ((∀ r ∈ table.rules, r.frame?.isSome → 0 < r.level) →
        (∀ f ∈ n.frames, 0 < f.level) ∧
          (n.frames.Pairwise fun inner outer ↦ outer.level < inner.level) ∧
          n.depth ≤ table.levels.card) := by
  have hr := Ruled.after table tags
  refine ⟨fun h ↦ ?_, fun r h ↦ ?_, hr.graded, hr.depth_le, fun hpos ↦ ?_⟩
  · simp only [transition, hr.table_eq, Option.bind_some, h, and_self]
  · simp only [transition, hr.table_eq, Option.bind_some, h]
    exact apply_graded r hr.graded
  · have hlevel : ∀ f ∈ (after table tags).frames, 0 < f.level := fun f hf ↦ hr.level_pos hpos hf
    refine ⟨hlevel, hr.graded.imp_of_mem fun hi _ hl ↦ ?_, ?_⟩
    · have := hlevel _ hi
      omega
    · have hzero : (after table tags).frames.countP (·.level = 0) = 0 :=
        List.countP_eq_zero.2 fun f hf ↦ by simpa using (hlevel f hf).ne'
      simpa [hzero] using hr.depth_le

theorem transition_after_nested :
    let table : LoopTable :=
      ⟨[⟨some "HL", "HL", 1, "*"⟩, ⟨some ".", "PID", 2, "*"⟩, ⟨some "SLN", "SLN", 3, "*"⟩,
        ⟨none, "CTT", 1, "*"⟩]⟩
    let n := after table ["HL", "PID", "SLN"]
    (∀ r ∈ table.rules, r.frame?.isSome → 0 < r.level) ∧
      n.frames = [⟨some "SLN", 3⟩, ⟨none, 2⟩, ⟨some "HL", 1⟩] ∧ n.depth ≤ table.levels.card ∧
      (n.transition "PID").2.2.frames = [⟨none, 2⟩, ⟨some "HL", 1⟩] ∧
      (n.transition "CTT").2.2.frames = [⟨some "HL", 1⟩] := by
  intro table n
  have hpos : ∀ r ∈ table.rules, r.frame?.isSome → 0 < r.level := by decide
  have hn : n.frames = [⟨some "SLN", 3⟩, ⟨none, 2⟩, ⟨some "HL", 1⟩] := rfl
  obtain ⟨-, hpid, -, -, hdepth⟩ := transition_after table ["HL", "PID", "SLN"] "PID"
  obtain ⟨-, hctt, -⟩ := transition_after table ["HL", "PID", "SLN"] "CTT"
  exact ⟨hpos, hn, (hdepth hpos).2.2, (hpid ⟨some ".", "PID", 2, "*"⟩ rfl).2.2,
    (hctt ⟨none, "CTT", 1, "*"⟩ rfl).2.2⟩

/-- A rule at level 0 leaves the loop at level 0 open that it is to close, and opens its own in
it. -/
theorem transition_after_zero :
    let r : LoopRule := ⟨some "A", "A", 0, "*"⟩
    let table : LoopTable := ⟨[r]⟩
    let n := after table ["A"]
    table.select? "A" n.path = some r ∧ n.frames = [⟨some "A", 0⟩] ∧
      (∀ f ∈ n.frames, r.closes f) ∧
      (n.transition "A").2.1 = startEvents r.frame?.toList ∧
      (n.transition "A").2.2.frames = [⟨some "A", 0⟩, ⟨some "A", 0⟩] ∧
      table.levels.card < (n.transition "A").2.2.depth := by
  refine ⟨rfl, rfl, by decide, rfl, rfl, by decide⟩

end LoopNesting

end Edi
