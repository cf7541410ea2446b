import Edi.Loop.Nesting
import Mathlib.Data.List.TakeWhile

namespace Edi

namespace LoopRule

def IsName (name : String) : Prop := name ≠ "" ∧ '/' ∉ name.toList

def written : List String → List Char
  | [] => []
  | name :: names => '/' :: (name.toList ++ written names)

/-- A context is made of names, each after a slash, and of any number of slashes at its end. Without
names it is the root. -/
structure Lists (context : String) (names : List String) : Prop where
  isName : ∀ name ∈ names, IsName name
  text : ∃ slashes, context.toList = written names ++ List.replicate slashes '/'

variable {name context : String} {names others opened : List String} {cs : List Char}

@[simp] theorem written_nil : written [] = [] := rfl

@[simp] theorem written_cons : written (name :: names) = '/' :: (name.toList ++ written names) :=
  rfl

@[simp] theorem written_append : written (names ++ others) = written names ++ written others := by
  induction names with
  | nil => rfl
  | cons name names ih => simp [ih]

theorem prefix_written (h : ∀ name ∈ names, '/' ∉ name.toList)
    (hp : cs ++ ['/'] <+: written names) :
    ∃ front name behind, names = front ++ name :: behind ∧ cs = written front := by
  induction names generalizing cs with
  | nil => simp at hp
  | cons name names ih =>
    obtain ⟨hname, hnames⟩ := List.forall_mem_cons.1 h
    cases cs with
    | nil => exact ⟨[], name, names, rfl, rfl⟩
    | cons c cs =>
      rw [written_cons, List.cons_append, List.cons_prefix_cons] at hp
      obtain ⟨rfl, hp⟩ := hp
      have hcs : name.toList <+: cs := by
        rcases List.prefix_or_prefix_of_prefix hp (List.prefix_append _ _) with hs | hs
        · exact absurd (hs.subset (by simp)) hname
        · rcases List.prefix_concat_iff.1 hs with he | hs
          · exact absurd (he ▸ List.mem_concat_self) hname
          · exact hs
      obtain ⟨cs, rfl⟩ := hcs
      rw [List.append_assoc, List.prefix_append_right_inj] at hp
      obtain ⟨front, other, behind, rfl, rfl⟩ := ih hnames hp
      exact ⟨name :: front, other, behind, rfl, rfl⟩

theorem takeWhile_written (h : '/' ∉ name.toList) :
    (name.toList ++ written names).takeWhile (· ≠ '/') = name.toList := by
  have hw : (written names).takeWhile (· ≠ '/') = [] := by cases names <;> rfl
  have hc : ∀ c ∈ name.toList, decide (c ≠ '/') := fun c hc ↦ by
    rw [decide_eq_true_eq]
    rintro rfl
    exact h hc
  rw [List.takeWhile_append_of_pos hc, hw, List.append_nil]

theorem written_inj (hn : ∀ name ∈ names, '/' ∉ name.toList)
    (ho : ∀ name ∈ others, '/' ∉ name.toList) :
    written names = written others ↔ names = others := by
  refine ⟨fun he ↦ ?_, congrArg written⟩
  induction names generalizing others with
  | nil =>
    cases others with
    | nil => rfl
    | cons other others => simp at he
  | cons name names ih =>
    cases others with
    | nil => simp at he
    | cons other others =>
      obtain ⟨hname, hnames⟩ := List.forall_mem_cons.1 hn
      obtain ⟨hother, hothers⟩ := List.forall_mem_cons.1 ho
      rw [written_cons, written_cons] at he
      have ht := (List.cons.inj he).2
      have hno : name.toList = other.toList :=
        calc name.toList
          _ = (name.toList ++ written names).takeWhile (· ≠ '/') := (takeWhile_written hname).symm
          _ = (other.toList ++ written others).takeWhile (· ≠ '/') := by rw [ht]
          _ = other.toList := takeWhile_written hother
      rw [hno, List.append_cancel_left_eq] at ht
      rw [String.toList_inj.1 hno, ih hnames hothers ht]

def pathOf (names : List String) : List Char := if names = [] then ['/'] else written names

theorem pathOf_of_ne (h : names ≠ []) : pathOf names = written names := if_neg h

theorem written_length_of_ne (h : ∀ name ∈ names, IsName name) (hne : names ≠ []) :
    1 < (written names).length := by
  obtain ⟨name, names, rfl⟩ := List.exists_cons_of_ne_nil hne
  have hpos : 0 < name.toList.length :=
    List.length_pos_iff.2 fun he ↦ (h name List.mem_cons_self).1 (String.toList_eq_nil_iff.1 he)
  simp only [written_cons, List.length_cons, List.length_append]
  omega

theorem pathOf_inj (hn : ∀ name ∈ names, IsName name) (ho : ∀ name ∈ others, IsName name) :
    pathOf names = pathOf others ↔ names = others := by
  refine ⟨fun he ↦ ?_, congrArg pathOf⟩
  by_cases hnames : names = [] <;> by_cases hothers : others = []
  · rw [hnames, hothers]
  · have hl := written_length_of_ne ho hothers
    rw [← pathOf_of_ne hothers, ← he, hnames] at hl
    simp [pathOf] at hl
  · have hl := written_length_of_ne hn hnames
    rw [← pathOf_of_ne hnames, he, hothers] at hl
    simp [pathOf] at hl
  · rw [pathOf_of_ne hnames, pathOf_of_ne hothers] at he
    exact (written_inj (fun n h ↦ (hn n h).2) fun n h ↦ (ho n h).2).1 he

theorem toList_rootPath : rootPath.toList = pathOf [] := rfl

theorem written_prefix_pathOf_iff (hn : ∀ name ∈ names, IsName name) (hne : names ≠ [])
    (ho : ∀ name ∈ opened, IsName name) :
    written names ++ ['/'] <+: pathOf opened ↔ names <+: opened ∧ names ≠ opened := by
  by_cases hopened : opened = []
  · subst hopened
    have hl := written_length_of_ne hn hne
    constructor
    · intro hp
      have := hp.length_le
      simp only [pathOf, List.length_append, List.length_singleton, ↓reduceIte] at this
      omega
    · exact fun ⟨hp, hx⟩ ↦ absurd (List.prefix_nil.1 hp) hx
  · rw [pathOf_of_ne hopened]
    constructor
    · intro hp
      obtain ⟨front, name, behind, rfl, hw⟩ := prefix_written (fun n h ↦ (ho n h).2) hp
      obtain rfl := (written_inj (fun n h ↦ (hn n h).2)
        fun n h ↦ (ho n (List.mem_append_left _ h)).2).1 hw
      exact ⟨List.prefix_append _ _, by simp⟩
    · rintro ⟨⟨behind, rfl⟩, hx⟩
      cases behind with
      | nil => simp at hx
      | cons name behind =>
        rw [written_append, written_cons]
        exact ⟨name.toList ++ written behind, by simp⟩

theorem exists_slashes (context : String) : ∃ cs slashes,
    context.toList = cs ++ List.replicate slashes '/' ∧ cs.getLast? ≠ some '/' := by
  have ha := List.takeWhile_append_dropWhile (p := (· = '/')) (l := context.toList.reverse)
  have ht : ∀ c ∈ context.toList.reverse.takeWhile (· = '/'), c = '/' := fun c hc ↦ by
    simpa using List.mem_takeWhile_imp hc
  refine ⟨(context.toList.reverse.dropWhile (· = '/')).reverse,
    (context.toList.reverse.takeWhile (· = '/')).length, ?_, ?_⟩
  · rw [← List.reverse_replicate, ← List.eq_replicate_of_mem ht, ← List.reverse_append, ha,
      List.reverse_reverse]
  · rw [List.getLast?_reverse]
    intro he
    have hn := List.head?_dropWhile_not (· = '/') context.toList.reverse
    simp [he] at hn

theorem normalContext_eq {slashes : Nat} (h : context.toList = cs ++ List.replicate slashes '/')
    (hl : cs.getLast? ≠ some '/') :
    (normalContext context).toList = if cs = [] then pathOf [] else cs := by
  have hd : context.toList.reverse.dropWhile (· = '/') = cs.reverse := by
    rw [h, List.reverse_append, List.dropWhile_append_of_pos (by simp)]
    cases hr : cs.reverse with
    | nil => rfl
    | cons c rest =>
      have hc : c ≠ '/' := fun hc ↦ hl (by rw [← List.head?_reverse, hr, hc]; rfl)
      exact List.dropWhile_cons_of_neg (by simpa using hc)
  simp only [normalContext, hd, List.reverse_reverse, String.isEmpty_iff,
    String.ofList_eq_empty_iff]
  split
  · exact toList_rootPath
  · exact String.toList_ofList

theorem getLast?_written (h : ∀ name ∈ names, IsName name) :
    (written names).getLast? ≠ some '/' := by
  induction names with
  | nil => simp
  | cons name names ih =>
    obtain ⟨⟨hne, hs⟩, hnames⟩ := List.forall_mem_cons.1 h
    have hl := List.getLast?_eq_some_getLast (mt String.toList_eq_nil_iff.1 hne)
    have hn : name.toList.getLast (mt String.toList_eq_nil_iff.1 hne) ≠ '/' :=
      fun he ↦ hs (he ▸ List.getLast_mem _)
    rw [written_cons, List.getLast?_cons, List.getLast?_append, hl]
    cases hw : (written names).getLast? with
    | none => simpa using hn
    | some c => simpa [hw] using ih hnames

theorem ne_anyContext_of_lists (h : Lists context names) : context ≠ anyContext := by
  rintro rfl
  obtain ⟨slashes, ht⟩ := h.text
  cases names <;> cases slashes <;> simp [anyContext, List.replicate_succ] at ht

theorem normalContext_of_lists (h : Lists context names) :
    (normalContext context).toList = pathOf names := by
  obtain ⟨slashes, ht⟩ := h.text
  rw [normalContext_eq ht (getLast?_written h.isName)]
  cases names <;> rfl

variable {r : LoopRule}

/-- A context is that of the open loops, or of some of those around, if its names are. -/
theorem contextMatch?_of_lists (h : Lists r.context names) (ho : ∀ name ∈ opened, IsName name) :
    r.contextMatch? (String.ofList (pathOf opened)) =
      if names = opened then some .exact
      else if names <+: opened then some .ancestor
      else none := by
  have hn := normalContext_of_lists h
  have he : normalContext r.context = String.ofList (pathOf opened) ↔ names = opened := by
    rw [← String.toList_inj, hn, String.toList_ofList, pathOf_inj h.isName ho]
  have hroot : normalContext r.context = rootPath ↔ names = [] := by
    rw [← String.toList_inj, hn, toList_rootPath, pathOf_inj h.isName (by simp)]
  simp only [contextMatch?, ne_anyContext_of_lists h, ↓reduceIte, he, hroot, hn,
    String.toList_ofList, List.isPrefixOf_iff_prefix]
  by_cases hnames : names = []
  · simp [hnames]
  · simp only [hnames, false_or, pathOf_of_ne hnames, written_prefix_pathOf_iff h.isName hnames ho]
    by_cases hx : names = opened <;> simp [hx]

theorem lists_of_contextMatch? {m : ContextMatch} (ho : ∀ name ∈ opened, IsName name)
    (hc : r.context ≠ anyContext)
    (h : r.contextMatch? (String.ofList (pathOf opened)) = some m) :
    ∃ names, Lists r.context names := by
  obtain ⟨cs, slashes, ht, hl⟩ := exists_slashes r.context
  by_cases hcs : cs = []
  · exact ⟨[], by simp, slashes, by simpa [hcs] using ht⟩
  suffices hw : ∃ names, (∀ name ∈ names, IsName name) ∧ cs = written names by
    obtain ⟨names, hnames, rfl⟩ := hw
    exact ⟨names, hnames, slashes, ht⟩
  have hn := normalContext_eq ht hl
  rw [if_neg hcs] at hn
  have hpath : ¬cs = pathOf [] ∧ ¬cs ++ ['/'] <+: pathOf [] := by
    constructor
    · rintro rfl
      exact hl rfl
    · intro hp
      have := hp.length_le
      have := List.length_pos_iff.2 hcs
      simp only [pathOf, List.length_append, List.length_singleton, ↓reduceIte] at *
      omega
  simp only [contextMatch?, hc, ↓reduceIte, ← String.toList_inj, hn, toList_rootPath,
    String.toList_ofList, List.isPrefixOf_iff_prefix, hpath.1, false_or] at h
  by_cases hopened : opened = []
  · subst hopened
    simp [hpath] at h
  · rw [pathOf_of_ne hopened] at h
    split at h
    · next he => exact ⟨opened, ho, he⟩
    · split at h
      · next hp =>
        obtain ⟨front, name, behind, rfl, rfl⟩ := prefix_written (fun n h ↦ (ho n h).2) hp
        exact ⟨front, fun n h ↦ ho n (List.mem_append_left _ h), rfl⟩
      · simp at h

end LoopRule

theorem LoopNesting.renderPath_eq_pathOf (frames : List Frame) :
    renderPath frames = String.ofList (LoopRule.pathOf (openLoops frames)) := by
  have hj (names : List String) :
      (String.join (names.map ("/" ++ ·))).toList = LoopRule.written names := by
    induction names with
    | nil => rfl
    | cons name names ih => simp [String.join_cons, ih]
  rw [← String.toList_inj, String.toList_ofList, renderPath]
  cases hn : openLoops frames with
  | nil => exact LoopRule.toList_rootPath
  | cons name names =>
    rw [LoopRule.pathOf_of_ne (List.cons_ne_nil _ _)]
    exact hj (name :: names)

end Edi
