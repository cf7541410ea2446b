import Edi.Proofs.Segment.Trimmed
import Edi.Proofs.Text.Numeral
import Edi.Timestamp

namespace Edi.Timestamp

open Text (Decimal isWhite)

variable {cs ds blanks head rest : List Char} {widths ns : List Nat} {c : Char}
  {width n size : Nat} {year : Int}

@[simp] theorem byteSize_nil : byteSize [] = 0 := rfl

@[simp] theorem byteSize_append (cs ds : List Char) :
    byteSize (cs ++ ds) = byteSize cs + byteSize ds := by
  rw [byteSize, String.ofList_append, String.utf8ByteSize_append, byteSize, byteSize]

@[simp] theorem byteSize_cons (c : Char) (cs : List Char) :
    byteSize (c :: cs) = c.utf8Size + byteSize cs := by
  have hc : byteSize [c] = c.utf8Size := by
    rw [byteSize, ← String.singleton_eq_ofList, String.utf8ByteSize_singleton]
  rw [← hc, ← byteSize_append, List.singleton_append]

theorem byteSize_of_digits (h : ∀ d ∈ ds, d.isDigit) : byteSize ds = ds.length := by
  induction ds with
  | nil => rfl
  | cons d ds ih =>
    rw [byteSize_cons, Text.utf8Size_of_isDigit (h d List.mem_cons_self),
      ih fun x hx ↦ h x (List.mem_cons_of_mem d hx), List.length_cons, Nat.add_comm]

structure Clipped (size : Nat) (cs head : List Char) : Prop where
  isPrefix : head <+: cs
  byteSize_eq : byteSize head = min size (byteSize cs)

theorem clipped_nil_iff : Clipped size [] head ↔ head = [] := by
  constructor
  · exact fun h ↦ List.prefix_nil.1 h.isPrefix
  · rintro rfl
    exact ⟨List.prefix_rfl, (Nat.min_zero size).symm⟩

theorem clipped_cons_iff : Clipped size (c :: cs) head ↔ size = 0 ∧ head = [] ∨
    ∃ head', c.utf8Size ≤ size ∧ Clipped (size - c.utf8Size) cs head' ∧ c :: head' = head := by
  have hc := c.utf8Size_pos
  constructor
  · rintro ⟨hp, hs⟩
    rw [byteSize_cons] at hs
    cases head with
    | nil =>
      rw [byteSize_nil] at hs
      exact .inl ⟨by omega, rfl⟩
    | cons d head =>
      obtain ⟨rfl, ht⟩ := List.cons_prefix_cons.1 hp
      rw [byteSize_cons] at hs
      exact .inr ⟨head, by omega, ⟨ht, by omega⟩, rfl⟩
  · rintro (⟨rfl, rfl⟩ | ⟨head, hle, ⟨hp, hs⟩, rfl⟩)
    · exact ⟨List.nil_prefix, (Nat.zero_min _).symm⟩
    · refine ⟨List.cons_prefix_cons.2 ⟨rfl, hp⟩, ?_⟩
      rw [byteSize_cons, byteSize_cons]
      omega

theorem bytePrefix?_eq_some_iff : bytePrefix? size cs = some head ↔ Clipped size cs head := by
  fun_induction bytePrefix? size cs generalizing head with
  | case1 size => rw [clipped_nil_iff, Option.some.injEq, eq_comm]
  | case2 c cs => simp [clipped_cons_iff, Nat.ne_of_gt c.utf8Size_pos, eq_comm]
  | case3 size c cs hs hc ih => simp [clipped_cons_iff, hs, hc, ih]
  | case4 size c cs hs hc => simp [clipped_cons_iff, hs, hc]

/-- The digits of a number in front of `rest`: at most `width`, and fewer only where no digit
follows. -/
structure Run (width : Nat) (ds rest : List Char) (n : Nat) : Prop where
  decimal : Decimal ds n
  length_le : ds.length ≤ width
  ends : ds.length = width ∨ ∀ c ∈ rest.head?, ¬c.isDigit

theorem run_take_takeWhile (hne : (cs.takeWhile Char.isDigit).take width ≠ []) :
    let ds := (cs.takeWhile Char.isDigit).take width
    Run width ds (cs.drop ds.length) (Text.ofDigits ds) := by
  refine ⟨⟨hne, fun d hd ↦ ?_, (Text.ofDigits_eq _).symm⟩, List.length_take_le .., ?_⟩
  · exact List.all_eq_true.1 List.all_takeWhile d (List.mem_of_mem_take hd)
  · rcases Nat.le_total width (cs.takeWhile Char.isDigit).length with hw | hw
    · exact .inl (List.length_take_of_le hw)
    · have hr : cs.drop (cs.takeWhile Char.isDigit).length = cs.dropWhile Char.isDigit := by
        nth_rewrite 2 [← List.takeWhile_append_dropWhile (p := Char.isDigit) (l := cs)]
        exact List.drop_left
      rw [List.take_of_length_le hw, hr]
      exact .inr fun c hc ↦ by simp [Text.head_dropWhile cs hc]

theorem Run.take_takeWhile (h : Run width ds rest n) :
    ((ds ++ rest).takeWhile Char.isDigit).take width = ds := by
  rw [List.takeWhile_append_of_pos h.decimal.digits]
  rcases h.ends with hl | hr
  · rw [← hl, List.take_left]
  · have hn : rest.takeWhile Char.isDigit = [] := by
      cases rest with
      | nil => rfl
      | cons c rest => exact List.takeWhile_cons_of_neg (hr c rfl)
    rw [hn, List.append_nil, List.take_of_length_le h.length_le]

theorem digits?_eq_some_iff :
    digits? width cs = some (n, rest) ↔ ∃ ds, cs = ds ++ rest ∧ Run width ds rest n := by
  rw [digits?, ← List.take_takeWhile]
  constructor
  · intro h
    simp only [Option.ite_none_left_eq_some, Option.some.injEq, Prod.mk.injEq] at h
    obtain ⟨hne, rfl, rfl⟩ := h
    have hp : (cs.takeWhile Char.isDigit).take width <+: cs :=
      (List.take_prefix ..).trans (List.takeWhile_prefix _)
    exact ⟨_, (List.prefix_iff_eq_append.1 hp).symm, run_take_takeWhile hne⟩
  · rintro ⟨ds, rfl, h⟩
    rw [h.take_takeWhile, if_neg h.decimal.ne_nil, List.drop_left, Text.ofDigits_eq,
      h.decimal.value]

theorem digits?_of_not_isDigit (hc : ¬c.isDigit) : digits? width (c :: cs) = none := by
  rw [digits?, ← List.take_takeWhile, List.takeWhile_cons_of_neg hc, List.take_nil, if_pos rfl]

theorem digits?_length_eq_some_iff : digits? cs.length cs = some (n, rest) ↔
    ∃ ds, cs = ds ++ rest ∧ Decimal ds n ∧ ∀ c ∈ rest.head?, ¬c.isDigit := by
  rw [digits?_eq_some_iff]
  refine exists_congr fun ds ↦ and_congr_right ?_
  rintro rfl
  constructor
  · rintro ⟨hd, -, hl | he⟩
    · obtain rfl : rest = [] := by simpa using hl
      exact ⟨hd, by simp⟩
    · exact ⟨hd, he⟩
  · rintro ⟨hd, he⟩
    exact ⟨hd, by simp, .inr he⟩

/-- A number of at most `width` digits in front of `rest`, with white space before it. -/
inductive Number (width : Nat) : List Char → Nat → List Char → Prop
  | mk {blanks ds rest : List Char} {n : Nat} (hb : ∀ b ∈ blanks, isWhite b)
    (hd : Run width ds rest n) : Number width (blanks ++ (ds ++ rest)) n rest

inductive SignedYear : List Char → Int → List Char → Prop
  | plus {blanks ds rest : List Char} {n : Nat} (hb : ∀ b ∈ blanks, isWhite b) (hd : Decimal ds n)
    (he : ∀ c ∈ rest.head?, ¬c.isDigit) : SignedYear (blanks ++ '+' :: (ds ++ rest)) n rest
  | minus {blanks ds rest : List Char} {n : Nat} (hb : ∀ b ∈ blanks, isWhite b) (hd : Decimal ds n)
    (he : ∀ c ∈ rest.head?, ¬c.isDigit) : SignedYear (blanks ++ '-' :: (ds ++ rest)) (-n) rest

theorem dropWhile_blanks (hb : ∀ b ∈ blanks, isWhite b) (hc : ¬isWhite c) :
    (blanks ++ c :: cs).dropWhile isWhite = c :: cs := by
  rw [List.dropWhile_append_of_pos hb, List.dropWhile_cons_of_neg hc]

theorem digits?_dropWhile_eq_some_iff :
    digits? width (cs.dropWhile isWhite) = some (n, rest) ↔ Number width cs n rest := by
  constructor
  · intro h
    obtain ⟨blanks, he, hb⟩ := Text.exists_append_dropWhile isWhite cs
    obtain ⟨ds, hds, hd⟩ := digits?_eq_some_iff.1 h
    rw [he, hds]
    exact .mk hb hd
  · rintro ⟨hb, hd⟩
    obtain ⟨d, ds, rfl, hdigit⟩ := hd.decimal.exists_cons
    rw [List.cons_append, dropWhile_blanks hb (Text.not_isWhite_of_isDigit hdigit)]
    exact digits?_eq_some_iff.2 ⟨d :: ds, rfl, hd⟩

theorem number?_eq_some_iff : number? cs = some (n, rest) ↔ Number 2 cs n rest :=
  digits?_dropWhile_eq_some_iff

theorem year?_eq_some_iff : year? cs = some (year, rest) ↔
    SignedYear cs year rest ∨ ∃ n : Nat, n = year ∧ Number 4 cs n rest := by
  constructor
  · intro h
    obtain ⟨blanks, he, hb⟩ := Text.exists_append_dropWhile isWhite cs
    rw [year?] at h
    split at h <;> obtain ⟨⟨n, rest⟩, hn, ⟨⟩⟩ := Option.map_eq_some_iff.1 h
    · next hcs =>
      obtain ⟨ds, rfl, hd, hr⟩ := digits?_length_eq_some_iff.1 hn
      rw [he, hcs]
      exact .inl (.minus hb hd hr)
    · next hcs =>
      obtain ⟨ds, rfl, hd, hr⟩ := digits?_length_eq_some_iff.1 hn
      rw [he, hcs]
      exact .inl (.plus hb hd hr)
    · exact .inr ⟨n, rfl, digits?_dropWhile_eq_some_iff.1 hn⟩
  · rintro ((⟨hb, hd, he⟩ | ⟨hb, hd, he⟩) | ⟨n, rfl, h⟩)
    · rw [year?, dropWhile_blanks hb (by decide)]
      exact Option.map_eq_some_iff.2 ⟨_, digits?_length_eq_some_iff.2 ⟨_, rfl, hd, he⟩, rfl⟩
    · rw [year?, dropWhile_blanks hb (by decide)]
      exact Option.map_eq_some_iff.2 ⟨_, digits?_length_eq_some_iff.2 ⟨_, rfl, hd, he⟩, rfl⟩
    · rw [← digits?_dropWhile_eq_some_iff] at h
      rw [year?]
      split
      · next hcs => simp [hcs, digits?_of_not_isDigit] at h
      · next hcs => simp [hcs, digits?_of_not_isDigit] at h
      · rw [h, Option.map_some]

theorem SignedYear.exists_not_isDigit (h : SignedYear cs year rest) : ∃ c ∈ cs, ¬c.isDigit := by
  rcases h with _ | _
  · exact ⟨'+', by simp, by decide⟩
  · exact ⟨'-', by simp, by decide⟩

theorem Number.of_digits (h : Number width cs n rest) (hc : ∀ c ∈ cs, c.isDigit) :
    ∃ ds, cs = ds ++ rest ∧ Decimal ds n ∧ ds.length ≤ width ∧ ∀ c ∈ rest, c.isDigit := by
  obtain ⟨hb, hd⟩ := h
  next blanks ds =>
  -- White space is no digit, so that none stands before the number.
  obtain rfl : blanks = [] := by
    refine List.eq_nil_iff_forall_not_mem.2 fun b hm ↦ ?_
    exact Text.not_isWhite_of_isDigit (hc b (List.mem_append_left _ hm)) (hb b hm)
  exact ⟨ds, rfl, hd.decimal, hd.length_le, fun c hm ↦ hc c (by simp [hm])⟩

/-- Numbers of at most as many digits as the widths say, one behind another, with white space
before them. -/
inductive Numbers : List Nat → List Char → List Nat → Prop
  | nil : Numbers [] [] []
  | cons {width n : Nat} {widths ns : List Nat} {cs rest : List Char} (h : Number width cs n rest)
    (hs : Numbers widths rest ns) : Numbers (width :: widths) cs (n :: ns)

inductive FixedNumbers : List Nat → List Char → List Nat → Prop
  | nil : FixedNumbers [] [] []
  | cons {width n : Nat} {widths ns : List Nat} {ds rest : List Char} (h : Decimal ds n)
    (hl : ds.length = width) (hs : FixedNumbers widths rest ns) :
    FixedNumbers (width :: widths) (ds ++ rest) (n :: ns)

theorem numbers_nil_iff : Numbers [] cs [] ↔ cs = [] := by
  constructor
  · rintro ⟨⟩
    rfl
  · rintro rfl
    exact .nil

theorem numbers_cons_iff : Numbers (width :: widths) cs (n :: ns) ↔
    ∃ rest, Number width cs n rest ∧ Numbers widths rest ns := by
  constructor
  · rintro ⟨⟩
    exact ⟨_, ‹_›, ‹_›⟩
  · rintro ⟨rest, h, hs⟩
    exact .cons h hs

theorem Numbers.length_le (h : Numbers widths cs ns) (hc : ∀ c ∈ cs, c.isDigit) :
    cs.length ≤ widths.sum := by
  induction h with
  | nil => exact Nat.le_refl 0
  | cons h hs ih =>
    obtain ⟨ds, rfl, -, hl, hr⟩ := h.of_digits hc
    rw [List.length_append, List.sum_cons]
    exact Nat.add_le_add hl (ih hr)

theorem FixedNumbers.digits (h : FixedNumbers widths cs ns) : ∀ c ∈ cs, c.isDigit := by
  induction h with
  | nil => exact List.forall_mem_nil _
  | cons h hl hs ih => exact List.forall_mem_append.2 ⟨h.digits, ih⟩

theorem FixedNumbers.length_eq (h : FixedNumbers widths cs ns) : cs.length = widths.sum := by
  induction h with
  | nil => rfl
  | cons h hl hs ih => rw [List.length_append, List.sum_cons, hl, ih]

theorem FixedNumbers.numbers (h : FixedNumbers widths cs ns) : Numbers widths cs ns := by
  induction h with
  | nil => exact .nil
  | @cons width n widths ns ds rest h hl hs ih =>
    have hn : Number width ([] ++ (ds ++ rest)) n rest :=
      .mk (List.forall_mem_nil _) ⟨h, hl.le, .inl hl⟩
    exact .cons hn ih

theorem Numbers.fixed (h : Numbers widths cs ns) (hc : ∀ c ∈ cs, c.isDigit)
    (hl : cs.length = widths.sum) : FixedNumbers widths cs ns := by
  induction h with
  | nil => exact .nil
  | cons h hs ih =>
    obtain ⟨ds, rfl, hd, hle, hr⟩ := h.of_digits hc
    -- The numbers that follow have no room for a digit that is missing here.
    have hle' := hs.length_le hr
    rw [List.length_append, List.sum_cons] at hl
    exact .cons hd (by omega) (ih hr (by omega))

/-- Only where all are digits does the number of bytes say that no number has fewer digits than its
width. -/
theorem fixedNumbers_iff : FixedNumbers widths cs ns ↔
    Numbers widths cs ns ∧ byteSize cs = widths.sum ∧ ∀ c ∈ cs, c.isDigit := by
  constructor
  · intro h
    exact ⟨h.numbers, by rw [byteSize_of_digits h.digits, h.length_eq], h.digits⟩
  · rintro ⟨h, hs, hc⟩
    exact h.fixed hc (by rw [← byteSize_of_digits hc, hs])

end Edi.Timestamp
