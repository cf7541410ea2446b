import Edi.Proofs.Delimiters
import Edi.Proofs.Envelope.Marks
import Edi.Proofs.Reader.Header
import Edi.Proofs.Segment.Trimmed
import Edi.Proofs.Tiling

namespace Edi

/-- The field is an element that stands in a text as `v`. -/
structure Field.Shows (trims : Bool) (text : List Char) (position : Nat) (v : List Char)
    (f : Field) : Prop where
  position : f.position = position
  repeats : f.repeats = false
  span : f.span.slice text = v
  value : ∃ s, f.value = .simple s ∧ (trims = false → s.toList = v) ∧
    (trims = true → Text.Unpadded v s.toList)

theorem Field.shows_of_slice (trims : Bool) {text v : List Char} {span : Span} (position : Nat)
    (h : span.slice text = v) :
    Field.Shows trims text position v
      ⟨position, false, .simple (Occurrence.leafText trims v), span⟩ where
  position := rfl
  repeats := rfl
  span := h
  value := by
    refine ⟨_, rfl, ?_, ?_⟩
    · rintro rfl
      simp [Occurrence.leafText]
    · rintro rfl
      exact Occurrence.leafText_unpadded v

namespace Preamble

variable {trims : Bool} {text rest last v : List Char} {mark : Char} {values : List (List Char)}
  {start position i : Nat}

theorem simpleFields_length (trims : Bool) (start position : Nat) (values : List (List Char)) :
    (simpleFields trims start position values).length = values.length := by
  induction values generalizing start position with
  | nil => rfl
  | cons v vs ih => exact congrArg (· + 1) (ih _ _)

theorem simpleFields_getElem? (trims : Bool) (position : Nat)
    (h : text.drop start = values.flatMap (· ++ [mark]) ++ (last ++ rest))
    (hi : (values ++ [last])[i]? = some v) :
    ∃ span, (simpleFields trims start position (values ++ [last]))[i]? =
      some ⟨position + i, false, .simple (Occurrence.leafText trims v), span⟩ ∧
        span.slice text = v := by
  induction values generalizing start position i with
  | nil =>
    obtain ⟨rfl, rfl⟩ : i = 0 ∧ last = v := by simpa [List.getElem?_singleton] using hi
    exact ⟨_, rfl, Span.slice_of_drop h⟩
  | cons w ws ih =>
    rw [List.flatMap_cons, List.append_assoc, List.append_assoc] at h
    cases i with
    | zero =>
      obtain rfl : w = v := by simpa using hi
      exact ⟨_, rfl, Span.slice_of_drop h⟩
    | succ i =>
      have hd : text.drop (start + w.length + 1) =
          ws.flatMap (· ++ [mark]) ++ (last ++ rest) := by
        rw [Nat.add_assoc, ← List.drop_drop, ← List.drop_drop, h, List.drop_left]
        rfl
      obtain ⟨span, hf, hs⟩ := ih (position + 1) hd (by simpa using hi)
      refine ⟨span, ?_, hs⟩
      have hp : position + 1 + i = position + (i + 1) := by omega
      rw [hp] at hf
      exact hf

end Preamble

namespace Marks

variable {trims : Bool} {m m' : Marks} {values values' : List (List Char)}
  {after after' text : List Char}

/-- The text begins with a header by the marks `m`, and the text `after` follows it. -/
structure Heads (m : Marks) (values : List (List Char)) (after text : List Char) : Prop where
  eq : text = m.header values ++ after
  separates : m.Separates values
  not_alphanumeric : Text.isAlphanumeric m.field = false
  not_white : Text.isWhite m.field = false
  nodup : m.all.Nodup

/-- What a header by the marks `m` says: its delimiters, its length and its segment. -/
structure Decodes (trims : Bool) (values : List (List Char)) (after text : List Char) (m : Marks)
    (d : Delimiters) (n : Nat) (header : Segment) : Prop where
  field : d.field = m.field
  subElement : d.subElement = some m.sub
  terminator : d.terminator = m.terminator
  /-- The longest run of line ends behind the header. -/
  terminatorSuffix : ∃ run rest, after = run ++ rest ∧ (∀ c ∈ run, c = '\r' ∨ c = '\n') ∧
    (∀ c ∈ rest.head?, c ≠ '\r' ∧ c ≠ '\n') ∧
    d.terminatorSuffix = if run = [] then none else some (String.ofList run)
  release : d.release = none
  tag : d.tag = none
  subSubElement : d.subSubElement = none
  repetition (r : Char) : d.repetition = some r ↔ values[10]? = some [r] ∧
    Text.isAlphanumeric r = false ∧ r ∉ m.all ∧
    ∃ f version, header.fields[11]? = some f ∧ f.value = .simple version ∧ "00402" ≤ version
  length : n = (m.header values).length
  segment_tag : header.tag = "ISA"
  segment_span : header.span = ⟨0, n⟩
  count : header.fields.length = 16
  fields (i : Nat) (v : List Char) : (values ++ [[m.sub]])[i]? = some v →
    ∃ f, header.fields[i]? = some f ∧ f.Shows trims text (i + 1) v

theorem headerLength_eq (m : Marks) (values : List (List Char)) :
    headerLength values = (m.header values).length := by
  have h (n : Nat) : values.foldl (fun n v ↦ n + (v.length + 1)) n =
      n + (values.flatMap (· ++ [m.field])).length := by
    induction values generalizing n with
    | nil => rfl
    | cons v vs ih =>
      rw [List.foldl_cons, ih, List.flatMap_cons, List.length_append, List.length_append,
        List.length_singleton, Nat.add_assoc]
  simp only [headerLength, h, header, List.length_cons, List.length_append, List.length_nil]
  omega

theorem x12Repetition?_eq_some_iff (h : m.Separates values) (r : Char) :
    Preamble.x12Repetition? trims m.delimiters values = some r ↔ values[10]? = some [r] ∧
      Text.isAlphanumeric r = false ∧ r ∉ m.all ∧
      ∃ v, values[11]? = some v ∧ "00402" ≤ Occurrence.leafText trims v := by
  have hd : m.delimiters.isDelimiter r = false ↔ r ∉ m.all := by
    rw [← isDelimiter_iff, Bool.not_eq_true]
  have hl := h.length
  obtain ⟨version, hv⟩ : ∃ v, values[11]? = some v := ⟨_, List.getElem?_eq_getElem (by omega)⟩
  simp only [Preamble.x12Repetition?, hv, Option.some.injEq, exists_eq_left']
  split
  · next c v hc hv =>
    obtain rfl := Option.some.inj hv
    rw [hc]
    simp only [Option.ite_none_right_eq_some, Option.some.injEq, List.cons.injEq, and_true]
    constructor
    · rintro ⟨⟨hver, ha, hnd⟩, rfl⟩
      exact ⟨rfl, by simpa using ha, hd.1 (by simpa using hnd), hver⟩
    · rintro ⟨rfl, ha, hnd, hver⟩
      exact ⟨⟨hver, by simpa using ha, by simpa using hd.2 hnd⟩, rfl⟩
  · next hne =>
    simp only [reduceCtorEq, false_iff]
    rintro ⟨hr, -⟩
    exact hne r version hr rfl

theorem delimiters_terminatorSuffix (m : Marks) (after : List Char) :
    ∃ run rest, after = run ++ rest ∧ (∀ c ∈ run, c = '\r' ∨ c = '\n') ∧
      (∀ c ∈ rest.head?, c ≠ '\r' ∧ c ≠ '\n') ∧
      (m.delimiters.withTerminatorSuffix (String.ofList
        (after.takeWhile fun c ↦ c = '\r' || c = '\n'))).terminatorSuffix =
          if run = [] then none else some (String.ofList run) := by
  let isEnd (c : Char) : Bool := c = '\r' || c = '\n'
  refine ⟨after.takeWhile isEnd, after.dropWhile isEnd, List.takeWhile_append_dropWhile.symm, ?_,
    ?_, ?_⟩
  · intro c hc
    simpa [isEnd] using List.all_eq_true.1 List.all_takeWhile c hc
  · intro c hc
    simpa [isEnd] using Text.head_dropWhile after hc
  · simp [delimiters, Delimiters.withTerminatorSuffix, isEnd]

theorem segment_getElem? (trims : Bool) (h : m.Heads values after text) {i : Nat} {v : List Char}
    (hi : (values ++ [[m.sub]])[i]? = some v) :
    ∃ span, (m.segment trims values).fields[i]? =
      some ⟨i + 1, false, .simple (Occurrence.leafText trims v), span⟩ ∧ span.slice text = v := by
  have ht : text.drop 4 =
      values.flatMap (· ++ [m.field]) ++ ([m.sub] ++ (m.terminator :: after)) := by
    rw [h.eq]
    simp [header]
  rw [Nat.add_comm i 1]
  exact Preamble.simpleFields_getElem? trims 1 ht hi

theorem preamble_decodes (trims : Bool) (h : m.Heads values after text) :
    ∃ d n header, m.preamble trims values after = .decoded d n header ∧
      m.Decodes trims values after text d n header := by
  have hl := h.separates.length
  refine ⟨_, _, _, rfl,
    { field := rfl, subElement := rfl, terminator := rfl, release := rfl, tag := rfl
      subSubElement := rfl, segment_tag := rfl, segment_span := rfl
      terminatorSuffix := m.delimiters_terminatorSuffix after, repetition := ?_
      length := headerLength_eq m values, count := ?_, fields := ?_ }⟩
  · intro r
    obtain ⟨v, hv⟩ : ∃ v, values[11]? = some v := ⟨_, List.getElem?_eq_getElem (by omega)⟩
    have hv' : (values ++ [[m.sub]])[11]? = some v := by
      rw [List.getElem?_append_left (by omega), hv]
    obtain ⟨span, hf, -⟩ := segment_getElem? trims h hv'
    rw [show Delimiters.repetition _ = _ from rfl, Preamble.x12Repetition?_withTerminatorSuffix,
      x12Repetition?_eq_some_iff h.separates]
    simp [hf, hv]
  · rw [segment, Preamble.simpleFields_length, List.length_append, hl]
    rfl
  · intro i v hi
    obtain ⟨span, hf, hs⟩ := segment_getElem? trims h hi
    exact ⟨_, hf, Field.shows_of_slice trims (i + 1) hs⟩

theorem Decodes.configured_nodup {d : Delimiters} {n : Nat} {header : Segment}
    (hm : m.all.Nodup) (h : m.Decodes trims values after text d n header) :
    d.configured.Nodup := by
  have hc : d.configured = [m.field, m.terminator, m.sub] ++ d.repetition.toList := by
    cases hr : d.repetition <;>
      simp [Delimiters.configured, Delimiters.roles, Delimiters.character?, h.field,
        h.terminator, h.subElement, h.subSubElement, h.release, h.tag, hr]
  have hp : [m.field, m.terminator, m.sub].Perm m.all := .cons _ (.swap ..)
  rw [hc, List.nodup_append]
  refine ⟨hp.nodup_iff.2 hm, ?_, ?_⟩
  · cases d.repetition <;> simp
  · rintro a ha r hr rfl
    obtain ⟨-, -, hn, -⟩ := (h.repetition a).1 (Option.mem_toList.1 hr)
    exact hn (hp.mem_iff.1 ha)

variable {p : Preamble}

theorem Heads.ofX12_eq (trims : Bool) (h : m.Heads values after text) :
    Preamble.ofX12 trims text = .ok (m.preamble trims values after) :=
  ofX12_eq_ok_iff.2 ⟨m, values, after, h.eq, h.separates, h.not_alphanumeric, h.not_white, h.nodup,
    rfl⟩

theorem heads_of_ofX12_eq (h : Preamble.ofX12 trims text = .ok p) :
    ∃ (m : Marks) (values : _) (after : _), m.Heads values after text ∧
      p = m.preamble trims values after := by
  obtain ⟨m, values, after, ht, hs, ha, hw, hd, rfl⟩ := ofX12_eq_ok_iff.1 h
  exact ⟨m, values, after, ⟨ht, hs, ha, hw, hd⟩, rfl⟩

theorem nodup_of_readHeader {r r₀ : Reader} {header : Segment} (hs : r.standard = .x12)
    (h : r.readHeader = (.ok header, r₀)) : r₀.scanner.delimiters.configured.Nodup := by
  obtain ⟨preview, t, p, u, -, hp, -, -, advised, rfl⟩ := Reader.readHeader_eq_ok h
  rw [hs] at hp ⊢
  obtain ⟨m, values, after, hm, rfl⟩ := heads_of_ofX12_eq hp
  obtain ⟨d, n, header', hpre, hd⟩ := preamble_decodes t.trims hm
  rw [hpre]
  exact hd.configured_nodup hm.nodup

/-- The header of an X12 interchange is decoded exactly by its format: a text is decoded if it
begins with a header. There is then one way only in which it does, and this gives the delimiters,
the length and the elements. So the delimiters of an interchange are all different. -/
theorem ofX12_exact (trims : Bool) (text : List Char) :
    ((∃ p, Preamble.ofX12 trims text = .ok p) ↔
      ∃ (m : Marks) (values : _) (after : _), m.Heads values after text) ∧
    (∀ (m : Marks) (values after : _), m.Heads values after text →
      (∀ (m' : Marks) (values' after' : _), m'.Heads values' after' text →
        m' = m ∧ values' = values ∧ after' = after) ∧
      ∃ d n header, Preamble.ofX12 trims text = .ok (.decoded d n header) ∧
        m.Decodes trims values after text d n header ∧ d.configured.Nodup) ∧
    ∀ (r r₀ : Reader) (header : Segment), r.standard = .x12 →
      r.readHeader = (.ok header, r₀) → r₀.scanner.delimiters.configured.Nodup := by
  refine ⟨⟨?_, ?_⟩, ?_, fun _ _ _ ↦ nodup_of_readHeader⟩
  · rintro ⟨p, hp⟩
    obtain ⟨m, values, after, hm, -⟩ := heads_of_ofX12_eq hp
    exact ⟨m, values, after, hm⟩
  · rintro ⟨m, values, after, hm⟩
    exact ⟨_, hm.ofX12_eq trims⟩
  · intro m values after hm
    refine ⟨?_, ?_⟩
    · intro m' values' after' hm'
      exact header_unique hm'.separates hm.separates (hm'.eq.symm.trans hm.eq)
    · obtain ⟨d, n, header, hp, hd⟩ := preamble_decodes trims hm
      exact ⟨d, n, header, hp ▸ hm.ofX12_eq trims, hd, hd.configured_nodup hm.nodup⟩

/-- A header that declares a repetition separator, between the line end and what follows it. -/
theorem ofX12_exact_repetition :
    let values := ["00", "  ", "00", "  ", "ZZ", "A ", "ZZ", "B ", "210101", "1253", "^", "00501",
      "7", "0", "P"].map String.toList
    let m : Marks := ⟨'*', ':', '~'⟩
    let text := "ISA*00*  *00*  *ZZ*A *ZZ*B *210101*1253*^*00501*7*0*P*:~\r\nGS*".toList
    m.Heads values "\r\nGS*".toList text ∧
      ∃ d n header, Preamble.ofX12 true text = .ok (.decoded d n header) ∧
        m.Decodes true values "\r\nGS*".toList text d n header ∧
        d.repetition = some '^' ∧ d.configured.Nodup := by
  intro values m text
  have hm : m.Heads values "\r\nGS*".toList text :=
    ⟨by decide +kernel, ⟨rfl, by decide +kernel⟩, by decide +kernel, by decide, by decide⟩
  have hr : (Preamble.ofX12 true text).toOption.map (·.delimiters.repetition) =
      some (some '^') := by decide +kernel
  obtain ⟨-, hdecoded, -⟩ := ofX12_exact true text
  obtain ⟨-, d, n, header, hp, hd, hn⟩ := hdecoded m values _ hm
  rw [hp] at hr
  exact ⟨hm, d, n, header, hp, hd, Option.some.inj hr, hn⟩

end Marks

end Edi
