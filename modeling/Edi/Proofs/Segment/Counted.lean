import Edi.Proofs.Segment.Feed
import Edi.Proofs.Segment.Written
import Edi.Proofs.Transcript

namespace Edi

namespace Delimiters

variable {d : Delimiters} {released : Bool} {offset : Nat} {cs : List Char} {c : Char}

def releases (d : Delimiters) (released : Bool) : List Char → Bool
  | [] => released
  | c :: cs => d.releases (!released && d.classify c = .release) cs

/-- The offsets just past the data among some characters of an element, the first of which stands
at the offset. A released character is data whatever it is. -/
def dataStops (d : Delimiters) (released : Bool) (offset : Nat) : List Char → List Nat
  | [] => []
  | c :: cs =>
    (if released ∨ d.classify c = .data then [offset + 1] else []) ++
      d.dataStops (!released && d.classify c = .release) (offset + 1) cs

theorem releases_concat (d : Delimiters) (released : Bool) (cs : List Char) (c : Char) :
    d.releases released (cs ++ [c]) = (!d.releases released cs && d.classify c = .release) := by
  induction cs generalizing released with
  | nil => rfl
  | cons b cs ih => exact ih _

theorem dataStops_concat (d : Delimiters) (released : Bool) (offset : Nat) (cs : List Char)
    (c : Char) :
    d.dataStops released offset (cs ++ [c]) = d.dataStops released offset cs ++
      if d.releases released cs ∨ d.classify c = .data then [offset + cs.length + 1] else [] := by
  induction cs generalizing released offset with
  | nil => simp [dataStops, releases]
  | cons b cs ih =>
    have ho : offset + 1 + cs.length = offset + (b :: cs).length := by
      rw [List.length_cons, Nat.add_right_comm, Nat.add_assoc]
    rw [List.cons_append, dataStops, ih, ho, ← List.append_assoc]
    rfl

end Delimiters

def Field.dataStops (d : Delimiters) (text : List Char) (f : Field) : List Nat :=
  d.dataStops false f.span.start (f.span.slice text)

/-- What was counted of an occurrence is the data among the characters `cs` that were read of it,
the first of which stands at the offset `start`. -/
structure Occurrence.Counts (d : Delimiters) (start : Nat) (cs : List Char) (o : Occurrence) :
    Prop where
  released : o.released = d.releases false cs
  stops : (d.dataStops false start cs).length = o.length
  value : (o.value false).length = o.length

namespace Occurrence

variable {d : Delimiters} {start : Nat} {cs : List Char} {c : Char} {k : CharClass}
  {o o' : Occurrence}

theorem length_value (o : Occurrence) : (o.value false).length =
    o.leaf.length + o.pieces.flatten.length + o.parts.flatten.flatten.length := by
  have hp (pieces : List (List Char)) :
      (pieces.map (leafText false)).flatMap String.toList = pieces.flatten := by
    simp [List.flatMap_def, leafText, Function.comp_def]
  simp only [value]
  split
  · simp only [Value.length, List.flatMap_map, hp, openPart]
    simp [List.length_flatMap, List.length_flatten, List.sum_reverse, Function.comp_def]
    omega
  · next h =>
    simp only [isComposite, Bool.not_eq_true, Bool.not_eq_false', Bool.and_eq_true,
      List.isEmpty_iff] at h
    simp [Value.length, leafText, h.1, h.2]

theorem Counts.step (h : o.Counts d start cs) (hs : o.step c (d.classify c) = .grown o') :
    o'.Counts d start (cs ++ [c]) := by
  obtain ⟨hr, hc, hv⟩ := h
  rw [length_value] at hv
  cases step_eq_grown hs with
  | data hk =>
    constructor
    · rw [Delimiters.releases_concat, ← hr]
      rcases hk with hk | hk <;> simp [push, hk]
    · rw [Delimiters.dataStops_concat, if_pos (hr ▸ hk), List.length_append, hc]
      rfl
    · rw [length_value]
      simp only [push, List.length_cons]
      omega
  | release hf hk | subElement hf hk | subSubElement hf hk =>
    constructor
    · simp [Delimiters.releases_concat, ← hr, hf, hk, endPart, endPiece]
    · simp [Delimiters.dataStops_concat, ← hr, hf, hk, hc, endPart, endPiece]
    · rw [length_value]
      simp [endPart, endPiece, openPart] at hv ⊢
      omega

end Occurrence

/-- Where the first of some lists with more than `m` members leaves that many behind. -/
def overrun? (m : Nat) (stops : List (List Nat)) : Option Nat :=
  (stops.find? (m < ·.length)).bind (·[m]?)

section Overrun

variable {m offset : Nat} {stops : List (List Nat)} {l : List Nat}

theorem overrun?_eq_none_iff : overrun? m stops = none ↔ ∀ l ∈ stops, l.length ≤ m := by
  rw [overrun?]
  cases h : stops.find? (m < ·.length) with
  | none => simpa using h
  | some l =>
    have hm : m < l.length := by simpa using List.find?_some h
    simp only [Option.bind_some, List.getElem?_eq_none_iff]
    exact ⟨fun hl ↦ absurd hl (Nat.not_le.2 hm), fun hl ↦ hl l (List.mem_of_find?_eq_some h)⟩

theorem overrun?_dataStops {d : Delimiters} {text : List Char} {fields : List Field}
    (h : ∀ f ∈ fields, (f.dataStops d text).length = f.value.length) (m : Nat) :
    overrun? m (fields.map (·.dataStops d text)) =
      (fields.find? (m < ·.value.length)).bind fun f ↦ (f.dataStops d text)[m]? := by
  induction fields with
  | nil => rfl
  | cons f fields ih =>
    rw [List.forall_mem_cons] at h
    specialize ih h.2
    simp only [overrun?, List.map_cons, List.find?_cons, h.1] at ih ⊢
    split
    · rfl
    · exact ih

theorem overrun?_concat_nil (m : Nat) (stops : List (List Nat)) :
    overrun? m (stops ++ [[]]) = overrun? m stops := by
  simp [overrun?, List.find?_append]

theorem overrun?_concat_append (m : Nat) (stops : List (List Nat)) (l : List Nat) (offset : Nat)
    (q : Prop) [Decidable q] :
    overrun? m (stops ++ [l ++ if q then [offset] else []]) =
      (overrun? m (stops ++ [l])).or (if q ∧ l.length = m then some offset else none) := by
  by_cases hq : q
  swap
  · simp [hq]
  simp only [overrun?, List.find?_append, hq, if_true, true_and]
  cases h : stops.find? (m < ·.length) with
  | some x =>
    have hm : m < x.length := by simpa using List.find?_some h
    simp [hm]
  | none =>
    rcases Nat.lt_trichotomy l.length m with hl | rfl | hl
    · have h₁ : ¬m < l.length := by omega
      have h₂ : ¬m < l.length + 1 := by omega
      simp [h₁, h₂, Nat.ne_of_lt hl]
    · simp
    · have h₁ : m < l.length + 1 := by omega
      simp [hl, h₁]

theorem lt_iff_of_length {n : Nat} {q : Prop} [Decidable q] (hl : l.length ≤ m)
    (hn : (l ++ if q then [offset] else []).length = n) : m < n ↔ q ∧ l.length = m := by
  by_cases hq : q
  · simp only [hq, if_true, List.length_append, List.length_singleton] at hn
    simp only [hq, true_and]
    omega
  · simp only [hq, if_false, List.append_nil] at hn
    simp only [hq, false_and, iff_false]
    omega

end Overrun

namespace Segment

variable {d : Delimiters} {text : List Char} {m maxLength start offset : Nat} {p p' : Part}
  {c : Char} {cs rest : List Char} {s : Segment}

def Part.dataStops (d : Delimiters) (text : List Char) (offset : Nat) : Part → List (List Nat)
  | tag _ => []
  | body b => b.fields.reverse.map (·.dataStops d text) ++
      [d.dataStops false b.start (Span.slice text ⟨b.start, offset⟩)]

def Part.Counts (d : Delimiters) (text : List Char) (offset : Nat) : Part → Prop
  | tag _ => True
  | body b => b.start ≤ offset ∧ (∀ f ∈ b.fields, (f.dataStops d text).length = f.value.length) ∧
      b.current.Counts d b.start (Span.slice text ⟨b.start, offset⟩)

theorem Body.dataStops_endOccurrence (d : Delimiters) (text : List Char) (offset : Nat)
    (repeats : Bool) (b : Body) :
    (Part.body (b.endOccurrence false offset repeats)).dataStops d text (offset + 1) =
      (Part.body b).dataStops d text offset ++ [[]] := by
  simp [Part.dataStops, endOccurrence, Field.dataStops, Span.slice_self, Delimiters.dataStops]

theorem recognizer_feed_counts (hp : p.Counts d text offset) (hc : text[offset]? = some c)
    (hf : (recognizer d false maxLength start).feed p (offset + 1) c (d.classify c) = .more p') :
    p'.Counts d text (offset + 1) := by
  have hnew : ({} : Occurrence).Counts d (offset + 1)
      (Span.slice text ⟨offset + 1, offset + 1⟩) := by
    rw [Span.slice_self]
    exact ⟨rfl, rfl, rfl⟩
  cases recognizer_feed_eq_more hf with
  | letter => trivial
  | tagEnd => exact ⟨Nat.le_refl _, nofun, hnew⟩
  | grown ho =>
    obtain ⟨hb, hfields, hcur⟩ := hp
    refine ⟨Nat.le_succ_of_le hb, hfields, ?_⟩
    rw [Span.slice_succ hb hc]
    exact hcur.step ho
  | ended =>
    obtain ⟨hb, hfields, hcur⟩ := hp
    refine ⟨Nat.le_refl _, List.forall_mem_cons.2 ⟨?_, hfields⟩, hnew⟩
    exact hcur.stops.trans hcur.value.symm

/-- A recognizer with another limit makes the same of a character, unless this is the first one
that is too many. -/
theorem recognizer_feed_limited (m : Nat) (hp : p.Counts d text offset)
    (hc : text[offset]? = some c)
    (hf : (recognizer d false maxLength start).feed p (offset + 1) c (d.classify c) = .more p') :
    ∃ new, overrun? m (p'.dataStops d text (offset + 1)) =
        (overrun? m (p.dataStops d text offset)).or new ∧
      (overrun? m (p.dataStops d text offset) = none →
        (recognizer d false m start).feed p (offset + 1) c (d.classify c) =
          match new with
          | none => .more p'
          | some e => .take (.error (.elementTooLong m e))) := by
  cases recognizer_feed_eq_more hf with
  | letter => exact ⟨none, rfl, fun _ ↦ hf⟩
  | tagEnd =>
    refine ⟨none, ?_, fun _ ↦ hf⟩
    simp [Part.dataStops, Span.slice_self, Delimiters.dataStops, overrun?]
  | @grown b o ho =>
    obtain ⟨hb, -, hcur⟩ := hp
    have hlen : b.start + (Span.slice text ⟨b.start, offset⟩).length = offset := by
      rw [Span.length_slice (Nat.le_of_lt (List.getElem?_eq_some_iff.1 hc).1)]
      omega
    have hm : (recognizer d false m start).feed (.body b) (offset + 1) c (d.classify c) =
        if m < o.length then .take (.error (.elementTooLong m (offset + 1)))
        else .more (.body { b with current := o }) := by
      simp only [recognizer, ho]
    have ho' := (hcur.step ho).stops
    simp only [Part.dataStops, Span.slice_succ hb hc]
    rw [Delimiters.dataStops_concat, hlen] at ho' ⊢
    refine ⟨_, overrun?_concat_append .., fun hn ↦ ?_⟩
    have hl := overrun?_eq_none_iff.1 hn _ (List.mem_append_right _ (List.mem_singleton_self _))
    rw [hm]
    simp only [lt_iff_of_length hl ho']
    split <;> rfl
  | @ended b s ho hs =>
    refine ⟨none, ?_, fun _ ↦ ?_⟩
    · rw [Nat.add_sub_cancel, Body.dataStops_endOccurrence, overrun?_concat_nil, Option.or_none]
    · cases s
      case terminator => exact absurd rfl hs
      all_goals simp [recognizer, ho]

variable {rest : List Char} {s : Segment}

theorem advances_limited (m : Nat) (htext : text.drop start = cs ++ rest)
    (h : (recognizer d false maxLength start).Advances d start (.tag []) cs p) :
    p.Counts d text (start + cs.length) ∧
      let limited := recognizer d false m start
      match overrun? m (p.dataStops d text (start + cs.length)) with
      | none => limited.Advances d start (.tag []) cs p
      | some e => limited.Fails d start (.tag []) cs (.elementTooLong m e) := by
  induction h generalizing rest with
  | refl => exact ⟨trivial, .refl⟩
  | @step cs c p p' _ hf ih =>
    have hc : text[start + cs.length]? = some c := by
      rw [← List.getElem?_drop, htext]
      simp
    rw [List.append_assoc] at htext
    obtain ⟨hp, hm⟩ := ih htext
    obtain ⟨new, he, hnew⟩ := recognizer_feed_limited m hp hc hf
    rw [List.length_append, List.length_singleton, ← Nat.add_assoc]
    refine ⟨recognizer_feed_counts hp hc hf, ?_⟩
    rw [he]
    split at hm
    · next ho =>
      specialize hnew ho
      rw [ho, Option.none_or]
      split at hnew
      · exact hm.step hnew
      · exact hm.fails hnew
    · next e ho =>
      rw [ho]
      exact hm.append [c]

/-- A segment that is read without trimming is read with another limit too, unless the data of a
field is more than that. -/
theorem answers_limited (m : Nat) (htext : text.drop start = cs ++ c :: rest)
    (h : (recognizer d false maxLength start).Answers d start (.tag []) cs c s) :
    (∀ f ∈ s.fields, (f.dataStops d text).length = f.value.length) ∧
      let limited := recognizer d false m start
      match overrun? m (s.fields.map (·.dataStops d text)) with
      | none => limited.Answers d start (.tag []) cs c s
      | some e => limited.Fails d start (.tag []) cs (.elementTooLong m e) := by
  obtain ⟨p, ha, hf⟩ := h
  obtain ⟨hp, hm⟩ := advances_limited m htext ha
  suffices hs : (∀ f ∈ s.fields, (f.dataStops d text).length = f.value.length) ∧
      overrun? m (s.fields.map (·.dataStops d text)) =
        overrun? m (p.dataStops d text (start + cs.length)) ∧
      (recognizer d false m start).feed p (start + cs.length + 1) c (d.classify c) =
        .take (.ok s) by
    refine ⟨hs.1, ?_⟩
    rw [hs.2.1]
    split
    · next ho => exact ⟨p, by rwa [ho] at hm, hs.2.2⟩
    · next e ho => rwa [ho] at hm
  cases recognizer_feed_eq_take hf with
  | tag => exact ⟨nofun, by simp [Part.dataStops], hf⟩
  | body ho =>
    obtain ⟨-, hfields, hcur⟩ := hp
    refine ⟨?_, ?_, by simp [recognizer, ho]⟩
    · simp only [Body.endOccurrence, List.mem_reverse]
      exact List.forall_mem_cons.2 ⟨hcur.stops.trans hcur.value.symm, hfields⟩
    · simp [Body.endOccurrence, Part.dataStops, Field.dataStops]

end Segment

end Edi
