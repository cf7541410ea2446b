import Edi.Envelope.Step
import Edi.Proofs.Envelope.Preamble
import Edi.Proofs.Scanner.Renaming

namespace Edi

namespace Preamble

variable {mark : Char} {n : Nat} {cs rest : List Char} {values : List (List Char)}

theorem values?_eq_some_iff : values? mark n cs = some (values, rest) ↔
    values.length = n ∧ (∀ v ∈ values, mark ∉ v) ∧ cs = values.flatMap (· ++ [mark]) ++ rest := by
  induction n generalizing cs values with
  | zero =>
    constructor
    · intro h
      obtain ⟨rfl, rfl⟩ := Prod.mk.inj (Option.some.inj h)
      simp
    · rintro ⟨hl, -, rfl⟩
      obtain rfl := List.eq_nil_of_length_eq_zero hl
      rfl
  | succ n ih =>
    constructor
    · intro h
      simp only [values?] at h
      split at h
      · simp at h
      · next c tail hd =>
        obtain ⟨⟨vs, r⟩, hv, he⟩ := Option.map_eq_some_iff.1 h
        obtain ⟨rfl, rfl⟩ := Prod.mk.inj he
        obtain ⟨hl, hm, rfl⟩ := ih.1 hv
        have ha := List.takeWhile_append_dropWhile (p := fun b ↦ decide (b ≠ mark)) (l := cs)
        have hh := List.head?_dropWhile_not (fun b ↦ decide (b ≠ mark)) cs
        have hv : mark ∉ cs.takeWhile fun b ↦ decide (b ≠ mark) := fun hc ↦ by
          simpa using List.all_eq_true.1 List.all_takeWhile _ hc
        rw [hd] at ha hh
        obtain rfl : c = mark := by simpa using hh
        refine ⟨congrArg (· + 1) hl, List.forall_mem_cons.2 ⟨hv, hm⟩, ha.symm.trans ?_⟩
        simp
    · rintro ⟨hl, hm, rfl⟩
      obtain ⟨v, vs, rfl⟩ := List.exists_cons_of_length_eq_add_one hl
      obtain ⟨hv, hvs⟩ := List.forall_mem_cons.1 hm
      have hp : ∀ c ∈ v, decide (c ≠ mark) = true := by
        intro c hc
        exact decide_eq_true fun h ↦ hv (h ▸ hc)
      have hr := ih.2 ⟨Nat.succ.inj hl, hvs, rfl⟩
      simp only [values?, List.flatMap_cons, List.append_assoc]
      rw [List.dropWhile_append_of_pos hp, List.takeWhile_append_of_pos hp]
      simp [hr]

theorem find?_simpleFields_concat {trims : Bool} {start position k : Nat} (v : List Char)
    (h : k < position + values.length) :
    (simpleFields trims start position (values ++ [v])).find? (·.position = k) =
      (simpleFields trims start position values).find? (·.position = k) := by
  induction values generalizing start position with
  | nil =>
    have hk : position ≠ k := by
      rw [List.length_nil] at h
      omega
    simp [simpleFields, hk]
  | cons w ws ih =>
    simp only [List.cons_append, simpleFields, List.find?_cons]
    split
    · rfl
    · refine ih ?_
      rw [List.length_cons] at h
      omega

theorem x12Repetition?_congr {trims : Bool} {d d' : Delimiters}
    (h : ∀ v ∈ values, ∀ c ∈ v, d'.isDelimiter c = d.isDelimiter c) :
    x12Repetition? trims d' values = x12Repetition? trims d values := by
  simp only [x12Repetition?]
  split
  · next c version hc _ =>
    rw [h [c] (List.mem_of_getElem? hc) c (List.mem_singleton.2 rfl)]
  · rfl

end Preamble

/-- The delimiters that the header of an X12 interchange declares by using them. -/
@[ext] structure Marks where
  field : Char
  sub : Char
  terminator : Char
  deriving DecidableEq, Repr

namespace Marks

def all (m : Marks) : List Char := [m.field, m.sub, m.terminator]

def Plain (m : Marks) : Prop :=
  ∀ c ∈ m.all, Text.isAlphanumeric c = false ∧ Text.isBlankChar c = false

def Absent (m : Marks) (cs : List Char) : Prop := ∀ c ∈ m.all, c ∉ cs

-- Only the marks are to be gone through, and not all characters there are.
instance (m : Marks) : Decidable m.Plain :=
  List.decidableBAll (fun c ↦ Text.isAlphanumeric c = false ∧ Text.isBlankChar c = false) m.all

instance (m : Marks) (cs : List Char) : Decidable (m.Absent cs) :=
  List.decidableBAll (· ∉ cs) m.all

/-- The header `ISA f v₁ f v₂ … f vₙ f s t`. -/
def header (m : Marks) (values : List (List Char)) : List Char :=
  'I' :: 'S' :: 'A' :: m.field :: (values.flatMap (· ++ [m.field]) ++ [m.sub, m.terminator])

def delimiters (m : Marks) : Delimiters :=
  { field := m.field, terminator := m.terminator, subElement := some m.sub }

def headerLength (values : List (List Char)) : Nat :=
  values.foldl (fun n v ↦ n + (v.length + 1)) 5 + 1

def segment (trims : Bool) (values : List (List Char)) (m : Marks) : Segment :=
  ⟨"ISA", Preamble.simpleFields trims 4 1 (values ++ [[m.sub]]), ⟨0, headerLength values⟩⟩

def preamble (trims : Bool) (values : List (List Char)) (after : List Char) (m : Marks) :
    Preamble :=
  let d := m.delimiters.withTerminatorSuffix
    (String.ofList (after.takeWhile fun c ↦ c = '\r' || c = '\n'))
  .decoded { d with repetition := Preamble.x12Repetition? trims d values } (headerLength values)
    (m.segment trims values)

structure Separates (m : Marks) (values : List (List Char)) : Prop where
  length : values.length = 15
  free : ∀ v ∈ values, m.field ∉ v

variable {m m' : Marks} {values values' : List (List Char)} {after rest rest' cs : List Char}
  {trims : Bool} {p : Preamble}

theorem all_nodup_iff : m.all.Nodup ↔
    m.field ≠ m.sub ∧ m.field ≠ m.terminator ∧ m.sub ≠ m.terminator := by
  simp [all, and_assoc]

theorem Separates.values? (h : m.Separates values) (rest : List Char) :
    Preamble.values? m.field 15 (values.flatMap (· ++ [m.field]) ++ rest) = some (values, rest) :=
  Preamble.values?_eq_some_iff.2 ⟨h.length, h.free, rfl⟩

/-- The headers that can be decoded. -/
theorem ofX12_eq_ok_iff : Preamble.ofX12 trims cs = .ok p ↔ ∃ m values after,
    cs = header m values ++ after ∧ m.Separates values ∧
      Text.isAlphanumeric m.field = false ∧ Text.isWhite m.field = false ∧ m.all.Nodup ∧
      p = m.preamble trims values after := by
  constructor
  · intro h
    simp only [Preamble.ofX12] at h
    repeat' split at h
    all_goals simp only [reduceCtorEq, Except.ok.injEq] at h
    next _ field body hf _ values sub terminator after hv hd =>
    obtain ⟨hl, hm, rfl⟩ := Preamble.values?_eq_some_iff.1 hv
    simp only [Bool.or_eq_true, not_or, Bool.not_eq_true] at hf
    refine ⟨⟨field, sub, terminator⟩, values, after, ?_, ⟨hl, hm⟩, hf.1, hf.2, ?_, h.symm⟩
    · simp [header]
    · rw [all_nodup_iff]
      exact ⟨fun he ↦ hd (.inr (.inr he.symm)), fun he ↦ hd (.inl he.symm),
        fun he ↦ hd (.inr (.inl he.symm))⟩
  · rintro ⟨m, values, after, rfl, hv, hf, hw, hd, rfl⟩
    obtain ⟨hfs, hft, hst⟩ := all_nodup_iff.1 hd
    have hd' : ¬(m.terminator = m.field ∨ m.terminator = m.sub ∨ m.sub = m.field) := by
      rintro (he | he | he)
      · exact hft he.symm
      · exact hst he.symm
      · exact hfs he.symm
    simp [header, Preamble.ofX12, hf, hw, hv.values?, hd', preamble, segment, headerLength,
      delimiters]

theorem header_unique (hv : m.Separates values) (hv' : m'.Separates values')
    (h : header m values ++ rest = header m' values' ++ rest') :
    m = m' ∧ values = values' ∧ rest = rest' := by
  simp only [header, List.cons_append, List.cons.injEq, true_and, List.append_assoc,
    List.nil_append] at h
  obtain ⟨hf, h⟩ := h
  have hs := hv.values? (m.sub :: m.terminator :: rest)
  rw [h, hf, hv'.values?] at hs
  obtain ⟨rfl, he⟩ := Prod.mk.inj (Option.some.inj hs)
  obtain ⟨hsub, ht, rfl⟩ : m'.sub = m.sub ∧ m'.terminator = m.terminator ∧ rest' = rest := by
    simpa using he
  exact ⟨Marks.ext hf hsub.symm ht.symm, rfl, rfl⟩

theorem element?_segment (hv : m.Separates values) {k : Nat} (hk : k ≤ 15) :
    (m'.segment trims values).element? k = (m.segment trims values).element? k := by
  have hk' : k < 1 + values.length := by
    have := hv.length
    omega
  simp only [Segment.element?, segment, Preamble.find?_simpleFields_concat _ hk']

theorem start_segment (hv : m.Separates values) :
    Envelope.start .x12 (m'.segment trims values) =
      Envelope.start .x12 (m.segment trims values) := by
  have hx : InterchangeHeader.ofX12 (m'.segment trims values) =
      InterchangeHeader.ofX12 (m.segment trims values) := by
    have he (k : Nat) (hk : k ≤ 15) :
        (m'.segment trims values).element? k = (m.segment trims values).element? k :=
      element?_segment hv hk
    have hp : (m'.segment trims values).problem = (m.segment trims values).problem := rfl
    simp (disch := decide) only [InterchangeHeader.ofX12, Segment.simpleText, Segment.text,
      Segment.component, Segment.component?, hp, he]
  simp only [Envelope.start, InterchangeHeader.ofSegment, hx]

/-- Each of the marks `m` becomes that of `m'` with the same part, and other characters stay. -/
def rename (m m' : Marks) (c : Char) : Char :=
  if c = m.field then m'.field
  else if c = m.sub then m'.sub
  else if c = m.terminator then m'.terminator
  else c

theorem rename_of_not_mem {c : Char} (h : c ∉ m.all) : m.rename m' c = c := by
  simp only [all, List.mem_cons, List.not_mem_nil, or_false, not_or] at h
  simp only [rename, h, ↓reduceIte]

theorem rename_mem {c : Char} (h : c ∈ m.all) : m.rename m' c ∈ m'.all := by
  simp only [all, List.mem_cons, List.not_mem_nil, or_false] at h
  simp only [rename, all]
  repeat' split
  all_goals simp_all

/-- The marks `m` of a header can be exchanged for `m'`. Neither may stand in an element, since the
eleventh one may declare a repetition separator that is none of them. -/
structure Exchange (m m' : Marks) (values : List (List Char)) : Prop where
  plain : m.Plain
  plain' : m'.Plain
  distinct' : m'.all.Nodup
  length : values.length = 15
  free : ∀ v ∈ values, m.Absent v ∧ m'.Absent v

namespace Exchange

theorem separates (h : m.Exchange m' values) : m.Separates values :=
  ⟨h.length, fun v hv ↦ (h.free v hv).1 m.field (by simp [all])⟩

theorem separates' (h : m.Exchange m' values) : m'.Separates values :=
  ⟨h.length, fun v hv ↦ (h.free v hv).2 m'.field (by simp [all])⟩

def toRenaming (h : m.Exchange m' values) : Renaming where
  map := m.rename m'
  domain c := c ∉ m'.all
  blank c := by
    by_cases hc : c ∈ m.all
    · rw [(h.plain c hc).2, (h.plain' _ (rename_mem hc)).2]
    · rw [rename_of_not_mem hc]
  alphanumeric c hc := rename_of_not_mem fun hm ↦ by simp [(h.plain c hm).1] at hc

theorem map_header (h : m.Exchange m' values) (hd : m.all.Nodup) :
    (header m values).map (m.rename m') = header m' values := by
  obtain ⟨hfs, hft, hst⟩ := all_nodup_iff.1 hd
  have hvalues : (values.flatMap (· ++ [m.field])).map (m.rename m') =
      values.flatMap (· ++ [m'.field]) := by
    rw [List.map_flatMap, List.flatMap_def, List.flatMap_def]
    refine congrArg List.flatten (List.map_congr_left fun v hv ↦ ?_)
    have hmap : v.map (m.rename m') = v.map id :=
      List.map_congr_left fun c hc ↦ rename_of_not_mem fun hm ↦ (h.free v hv).1 c hm hc
    simp [hmap, rename]
  have hl (c : Char) (hc : Text.isAlphanumeric c) : m.rename m' c = c :=
    h.toRenaming.alphanumeric c hc
  simp only [header, List.map_cons, List.map_append, List.map_nil, hvalues]
  rw [hl 'I' (by decide), hl 'S' (by decide), hl 'A' (by decide)]
  simp [rename, hfs.symm, hft.symm, hst.symm]

theorem ofX12_map (h : m.Exchange m' values) {n : Nat}
    (hp : Preamble.ofX12 trims ((header m values ++ rest).take n) = .ok p) :
    m.all.Nodup ∧ ∃ after after', p = m.preamble trims values after ∧
      Preamble.ofX12 trims (((header m values ++ rest).take n).map (m.rename m')) =
        .ok (m'.preamble trims values after') := by
  obtain ⟨m₁, values₁, after, ht, hv₁, -, -, hd, rfl⟩ := ofX12_eq_ok_iff.1 hp
  -- What is seen of the text ends behind the header.
  have hall := List.take_append_drop n (header m values ++ rest)
  rw [ht, List.append_assoc] at hall
  obtain ⟨rfl, rfl, -⟩ := header_unique hv₁ h.separates hall
  refine ⟨hd, after, after.map (m₁.rename m'), rfl, ?_⟩
  rw [ht, List.map_append, h.map_header hd]
  obtain ⟨hf, hw⟩ := h.plain' m'.field (by simp [all])
  simp only [Text.isBlankChar, Bool.or_eq_false_iff] at hw
  exact ofX12_eq_ok_iff.2 ⟨m', values₁, _, rfl, h.separates', hf, hw.1, h.distinct', rfl⟩

end Exchange

theorem isDelimiter_iff (c : Char) : m.delimiters.isDelimiter c ↔ c ∈ m.all := by
  simp only [Delimiters.isDelimiter, Delimiters.classify, delimiters, all]
  grind

theorem classify_preamble (c : Char) : (m.preamble trims values after).delimiters.classify c =
    if c = m.terminator then .terminator
    else if c = m.field then .field
    else if c = m.sub then .subElement
    else if some c = Preamble.x12Repetition? trims m.delimiters values then .repetition
    else .data := by
  simp only [preamble, Preamble.delimiters, Preamble.x12Repetition?_withTerminatorSuffix]
  simp [Delimiters.classify, Delimiters.withTerminatorSuffix, delimiters]

theorem Exchange.carries (h : m.Exchange m' values) (hd : m.all.Nodup) :
    h.toRenaming.Carries (m.preamble trims values after).delimiters
      (m'.preamble trims values rest).delimiters := by
  have hr : Preamble.x12Repetition? trims m'.delimiters values =
      Preamble.x12Repetition? trims m.delimiters values := by
    refine Preamble.x12Repetition?_congr fun v hv c hc ↦ ?_
    have hm : c ∉ m.all := fun hm ↦ (h.free v hv).1 c hm hc
    have hm' : c ∉ m'.all := fun hm' ↦ (h.free v hv).2 c hm' hc
    exact Bool.eq_iff_iff.2 (by simp only [isDelimiter_iff, hm, hm'])
  obtain ⟨hfs, hft, hst⟩ := all_nodup_iff.1 hd
  obtain ⟨hfs', hft', hst'⟩ := all_nodup_iff.1 h.distinct'
  refine ⟨fun c hc ↦ ?_, fun c hc hdata ↦ rename_of_not_mem fun hm ↦ ?_, rfl, rfl, rfl⟩
  · simp only [toRenaming, all, List.mem_cons, List.not_mem_nil, or_false, not_or] at hc ⊢
    rw [classify_preamble, classify_preamble, hr, rename]
    grind
  · simp only [all, List.mem_cons, List.not_mem_nil, or_false] at hm
    rw [classify_preamble] at hdata
    grind

end Marks

end Edi
