import Edi.Proofs.Scanner.Segments
import Edi.Proofs.Scanner.Trace
import Edi.Proofs.Segment.Feed

namespace Edi

def Numbered (fields : List Field) : Prop :=
  (∀ f ∈ fields, f.repeats = false) →
    fields.map (·.position) = List.range' 1 fields.length

/-- The positions of occurrences after the position `last`. Those that repeat an element share its
position. -/
def positionsAfter (last : Nat) : List Bool → List Nat
  | [] => []
  | repeats :: rest =>
    let position := if repeats then last else last + 1
    position :: positionsAfter position rest

def Positioned (fields : List Field) : Prop :=
  fields.map (·.position) = positionsAfter 0 (fields.map (·.repeats))

theorem positionsAfter_concat (last : Nat) (rs : List Bool) (repeats : Bool) :
    positionsAfter last (rs ++ [repeats]) =
      positionsAfter last rs ++
        [if repeats then (positionsAfter last rs).getLast?.getD last
          else (positionsAfter last rs).getLast?.getD last + 1] := by
  induction rs generalizing last with
  | nil => rfl
  | cons r rs ih =>
    simp only [List.cons_append, positionsAfter, ih, List.getLast?_cons, Option.getD_some]

theorem positionsAfter_replicate (last n : Nat) :
    positionsAfter last (List.replicate n false) = List.range' (last + 1) n := by
  induction n generalizing last with
  | zero => rfl
  | succ n ih =>
    simp only [List.replicate_succ, positionsAfter, Bool.false_eq_true, ↓reduceIte, ih,
      List.range'_succ]

theorem Positioned.numbered {fields : List Field} (h : Positioned fields) : Numbered fields := by
  intro hr
  have hf : fields.map (·.repeats) = List.replicate fields.length false :=
    List.map_eq_replicate_iff.2 hr
  rw [h, hf, positionsAfter_replicate]

namespace Segment

structure Plain (n : Nat) (s : Segment) : Prop where
  length_le : s.fields.length ≤ n
  unrepeated : ∀ f ∈ s.fields, f.repeats = false
  simple : ∀ f ∈ s.fields, f.value.isComposite = false

instance (n : Nat) (s : Segment) : Decidable (s.Plain n) :=
  decidable_of_iff (s.fields.length ≤ n ∧ (∀ f ∈ s.fields, f.repeats = false) ∧
      ∀ f ∈ s.fields, f.value.isComposite = false)
    ⟨fun h ↦ ⟨h.1, h.2.1, h.2.2⟩, fun h ↦ ⟨h.length_le, h.unrepeated, h.simple⟩⟩

def values (n : Nat) (s : Segment) : List Value :=
  (List.range n).map fun k ↦ (s.fields[k]?.map (·.value)).getD (.simple "")

variable {s : Segment} {fields : List Field}

theorem find?_of_numbered {start : Nat}
    (h : fields.map (·.position) = List.range' start fields.length) (k : Nat) :
    fields.find? (·.position = start + k) = fields[k]? := by
  induction fields generalizing start k with
  | nil => rfl
  | cons f fs ih =>
    rw [List.map_cons, List.length_cons, List.range'_succ] at h
    obtain ⟨hf, hfs⟩ := List.cons.inj h
    cases k with
    | zero => simp [hf]
    | succ k =>
      have hne : f.position ≠ start + (k + 1) := by omega
      have hk : start + (k + 1) = start + 1 + k := by omega
      rw [List.find?_cons_of_neg (by simpa using hne), hk, ih hfs, List.getElem?_cons_succ]

theorem element?_of_numbered (hn : Numbered s.fields) (hr : ∀ f ∈ s.fields, f.repeats = false)
    (k : Nat) : s.element? (k + 1) = s.fields[k]?.map (·.value) := by
  rw [element?, Nat.add_comm k 1, find?_of_numbered (hn hr)]

theorem values_eq (hn : Numbered s.fields) (hr : ∀ f ∈ s.fields, f.repeats = false)
    (hs : ∀ f ∈ s.fields, f.value.isComposite = false) (n : Nat) :
    s.values n = (List.range n).map fun k ↦ .simple (s.text (k + 1)) := by
  refine List.map_congr_left fun k _ ↦ ?_
  rw [text, element?_of_numbered hn hr]
  cases hf : s.fields[k]? with
  | none => rfl
  | some f =>
    have hc := hs f (List.mem_of_getElem? hf)
    cases hv : f.value with
    | simple text => simp [hv, Value.first]
    | composite parts => simp [hv, Value.isComposite] at hc

theorem component_eq_text (hs : ∀ f ∈ s.fields, f.value.isComposite = false) (position : Nat) :
    s.component position 1 = s.text position := by
  simp only [component, component?, text]
  cases he : s.element? position with
  | none => rfl
  | some v =>
    obtain ⟨f, hf, rfl⟩ := Option.map_eq_some_iff.1 he
    have hc := hs f (List.mem_of_find?_eq_some hf)
    cases hv : f.value with
    | simple text => rfl
    | composite parts => simp [hv, Value.isComposite] at hc

def Part.Positioned : Part → Prop
  | tag _ => True
  | body b => Edi.Positioned b.fields.reverse

variable {d : Delimiters} {trims : Bool} {maxLength start offset : Nat} {p p' : Part} {c : Char}
  {cs : List Char} {k : CharClass}

theorem Body.endOccurrence_positioned {b : Body} (h : Positioned b.fields.reverse) (trims : Bool)
    (stop : Nat) (repeats : Bool) :
    Positioned (b.endOccurrence trims stop repeats).fields.reverse := by
  have hl : (b.fields.head?.map (·.position)).getD 0 =
      (positionsAfter 0 (b.fields.reverse.map (·.repeats))).getLast?.getD 0 := by
    rw [← h, List.getLast?_map, List.getLast?_reverse]
  simp only [Positioned, endOccurrence, List.reverse_cons, List.map_append, List.map_cons,
    List.map_nil, positionsAfter_concat, position, hl]
  rw [h]

theorem recognizer_feed_positioned (h : p.Positioned)
    (hf : (recognizer d trims maxLength start).feed p offset c k = .more p') : p'.Positioned := by
  cases recognizer_feed_eq_more hf with
  | letter => trivial
  | tagEnd => rfl
  | grown => exact h
  | ended => exact Body.endOccurrence_positioned h _ _ _

theorem positioned_of_answers
    (h : (recognizer d trims maxLength start).Answers d offset (.tag []) cs c s) :
    Positioned s.fields := by
  refine h.invariant (p := fun _ p ↦ p.Positioned) (q := fun _ _ s ↦ Edi.Positioned s.fields)
    trivial (fun _ _ _ _ hp hf ↦ recognizer_feed_positioned hp hf) fun cs c p s hp hf ↦ ?_
  cases recognizer_feed_eq_take hf with
  | tag => rfl
  | body => exact Body.endOccurrence_positioned hp trims _ false

end Segment

namespace Scanner

variable {t : Scanner} {s : Segment}

theorem positioned_of_mem_segments (h : s ∈ t.segments) : Positioned s.fields := by
  generalize hss : t.segments = ss at h
  induction ss generalizing t with
  | nil => cases h
  | cons s' ss ih =>
    obtain ⟨u, hs, hu⟩ := segment_of_segments_cons hss
    rcases List.mem_cons.1 h with rfl | h
    · obtain ⟨v, cs, c, -, ha, -⟩ := segment_answers hs
      exact Segment.positioned_of_answers ha
    · exact ih hu h

end Scanner

end Edi
