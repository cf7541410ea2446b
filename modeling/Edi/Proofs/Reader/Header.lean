import Edi.Proofs.Envelope.Preamble
import Edi.Reader

namespace Edi

variable {standard : Standard} {p : Preamble}

theorem Preamble.ofX12_subSubElement {trims : Bool} {preview : List Char}
    (h : ofX12 trims preview = .ok p) : p.delimiters.subSubElement = none := by
  simp only [ofX12] at h
  repeat' split at h
  all_goals simp only [reduceCtorEq, Except.ok.injEq] at h
  exact h ▸ rfl

theorem Preamble.ofEdifact_subSubElement {preview : List Char}
    (h : ofEdifact preview = .ok p) : p.delimiters.subSubElement = none := by
  simp only [ofEdifact] at h
  split at h
  all_goals simp only [reduceCtorEq, Except.ok.injEq] at h
  · exact h ▸ rfl
  · exact h ▸ rfl

theorem Preamble.ofTradacoms_subSubElement {preview : List Char}
    (h : ofTradacoms preview = .ok p) : p.delimiters.subSubElement = none := by
  simp only [ofTradacoms] at h
  split at h
  all_goals simp only [reduceCtorEq, Except.ok.injEq] at h
  exact h ▸ rfl

namespace Preamble

variable {trims : Bool} {start position : Nat} {values : List (List Char)} {f : Field}

theorem simpleFields_simple (h : f ∈ simpleFields trims start position values) :
    ∃ text, f.value = .simple text := by
  induction values generalizing start position with
  | nil => simp [simpleFields] at h
  | cons v vs ih =>
    rcases List.mem_cons.1 h with rfl | h
    · exact ⟨_, rfl⟩
    · exact ih h

theorem simpleFields_unrepeated (h : f ∈ simpleFields trims start position values) :
    f.repeats = false := by
  induction values generalizing start position with
  | nil => simp [simpleFields] at h
  | cons v vs ih =>
    rcases List.mem_cons.1 h with rfl | h
    · rfl
    · exact ih h

theorem simpleFields_numbered (trims : Bool) (start position : Nat) (values : List (List Char)) :
    (simpleFields trims start position values).map (·.position) =
      List.range' position (simpleFields trims start position values).length := by
  induction values generalizing start position with
  | nil => rfl
  | cons v vs ih => simp only [simpleFields, List.map_cons, List.length_cons, List.range'_succ, ih]

theorem ofX12_eq_ok {preview : List Char} (h : ofX12 trims preview = .ok p) :
    ∃ d n header start values, p = .decoded d n header ∧
      header.fields = simpleFields trims start 1 values := by
  simp only [ofX12] at h
  repeat' split at h
  all_goals simp only [reduceCtorEq, Except.ok.injEq] at h
  exact ⟨_, _, _, _, _, h.symm, rfl⟩

end Preamble

theorem Standard.preamble_subSubElement {trims : Bool} {preview : List Char}
    (h : standard.preamble trims preview = .ok p) : p.delimiters.subSubElement = none := by
  cases standard with
  | x12 => exact Preamble.ofX12_subSubElement h
  | edifact => exact Preamble.ofEdifact_subSubElement h
  | tradacoms => exact Preamble.ofTradacoms_subSubElement h

@[simp] theorem Standard.refine_subSubElement (advised : Bool) (header : Segment)
    (d : Delimiters) : (standard.refine advised header d).subSubElement = d.subSubElement := by
  simp only [Standard.refine]
  split <;> rfl

namespace Reader

variable {r r₀ : Reader} {header : Segment}

@[simp] theorem readHeader_standard (r : Reader) : r.readHeader.2.standard = r.standard := by
  simp only [readHeader]
  repeat' split
  all_goals rfl

@[simp] theorem readHeader_envelope (r : Reader) : r.readHeader.2.envelope = r.envelope := by
  simp only [readHeader]
  repeat' split
  all_goals rfl

theorem standard_of_readHeader {result : Except Error Segment}
    (h : r.readHeader = (result, r₀)) : r₀.standard = r.standard := by
  rw [← readHeader_standard r, h]

theorem parse_of_readHeader_error {e : Error} (policy : Policy) (earlier : List Problem)
    (hr : r.envelope = none) (h : r.readHeader = (.error e, r₀)) :
    r.parse policy earlier = ({ result := .error e }, r₀) := by
  simp only [parse, hr, h]

theorem parse_of_readHeader (policy : Policy) (earlier : List Problem) (hr : r.envelope = none)
    (h : r.readHeader = (.ok header, r₀)) :
    r.parse policy earlier = r₀.run policy earlier (Envelope.start r.standard header) := by
  simp only [parse, hr, h, standard_of_readHeader h]

theorem readHeader_of_preamble {t : Scanner} {preview : List Char} {p : Preamble}
    (hk : r.scanner.peek r.standard.previewLength = (.ok preview, t))
    (hp : r.standard.preamble t.trims preview = .ok p) :
    r.readHeader =
      let advised := r.advised || p.isAdvised
      match readHeaderSegment r.standard r.scanner.offset p { t with delimiters := p.delimiters }
      with
      | (.error e, t) => (.error e, { r with scanner := t, advised })
      | (.ok header, t) =>
        if r.standard.role header.tag ≠ .interchangeHeader then
          (.error (.missingHeader r.standard.headerTag header.tag),
            { r with scanner := t, advised })
        else
          (.ok header,
            { r with
              scanner :=
                { t with delimiters := r.standard.refine advised header p.delimiters }
              advised }) := by
  simp only [readHeader, hk, hp]
  cases p <;> rfl

theorem readHeader_eq_ok (h : r.readHeader = (.ok header, r₀)) :
    ∃ preview t p u, r.scanner.peek r.standard.previewLength = (.ok preview, t) ∧
      r.standard.preamble t.trims preview = .ok p ∧
      readHeaderSegment r.standard r.scanner.offset p { t with delimiters := p.delimiters } =
        (.ok header, u) ∧
      r.standard.role header.tag = .interchangeHeader ∧
      ∃ advised, r₀ = { r with
        scanner := { u with delimiters := r.standard.refine advised header p.delimiters }
        advised } := by
  simp only [readHeader] at h
  split at h
  · simp at h
  · next preview t hp =>
    split at h
    · simp at h
    · next p hd =>
      split at h
      · simp at h
      · next header' u hs =>
        split at h
        · simp at h
        · next hr =>
          obtain ⟨hh, rfl⟩ := Prod.mk.inj h
          obtain rfl := Except.ok.inj hh
          exact ⟨preview, t, p, u, hp, hd, hs, Decidable.not_not.1 hr, _, rfl⟩

theorem subSubElement_of_readHeader (h : r.readHeader = (.ok header, r₀)) :
    r₀.scanner.delimiters.subSubElement = none := by
  obtain ⟨_, _, p, _, _, hp, _, _, advised, rfl⟩ := readHeader_eq_ok h
  rw [Standard.refine_subSubElement, Standard.preamble_subSubElement hp]

theorem header_of_readHeader (h : r.readHeader = (.ok header, r₀)) (hs : r.standard = .x12) :
    ∃ (first : Segment) (distance : Nat) (trims : Bool) (start : Nat) (values : List (List Char)),
      header = first.shift distance ∧
        first.fields = Preamble.simpleFields trims start 1 values := by
  obtain ⟨_, t, p, u, _, hp, hr, _⟩ := readHeader_eq_ok h
  rw [hs] at hp
  obtain ⟨d, n, first, start, values, rfl, hf⟩ := Preamble.ofX12_eq_ok hp
  simp only [readHeaderSegment] at hr
  split at hr
  · simp at hr
  · obtain ⟨he, -⟩ := Prod.mk.inj hr
    obtain rfl := Except.ok.inj he
    exact ⟨first, _, t.trims, start, values, rfl, hf⟩

theorem simple_of_readHeader (h : r.readHeader = (.ok header, r₀)) (hs : r.standard = .x12)
    {f : Field} (hf : f ∈ header.fields) : ∃ text, f.value = .simple text := by
  obtain ⟨first, distance, _, _, _, rfl, hfields⟩ := header_of_readHeader h hs
  obtain ⟨g, hg, rfl⟩ := List.mem_map.1 hf
  rw [hfields] at hg
  exact Preamble.simpleFields_simple (f := g) hg

end Reader

end Edi
