import Edi.Proofs.Scanner.Renaming
import Edi.Proofs.Scanner.Trace
import Edi.Proofs.Segment.Written

namespace Edi

namespace Occurrence

variable {d : Delimiters} {o o' : Occurrence} {c : Char}

def write (d : Delimiters) (o : Occurrence) : List Char :=
  (o.parts.reverse.flatMap fun part ↦
      d.subSubElement.toList.intercalate part ++ d.subElement.toList) ++
    (o.pieces.reverse.flatMap (· ++ d.subSubElement.toList) ++ o.leaf.reverse)

structure Separable (d : Delimiters) (o : Occurrence) : Prop where
  parts : o.parts ≠ [] → d.subElement.isSome
  pieces : o.pieces ≠ [] → d.subSubElement.isSome
  pieces_of_part : ∀ part ∈ o.parts, 1 < part.length → d.subSubElement.isSome

theorem write_value (d : Delimiters) (o : Occurrence) :
    (o.value false).write d String.toList = o.write d := by
  have hopen : d.subSubElement.toList.intercalate o.openPart =
      o.pieces.reverse.flatMap (· ++ d.subSubElement.toList) ++ o.leaf.reverse := by
    rw [openPart, List.reverse_cons, intercalate_concat]
  have hleaf : (fun cs : List Char ↦ (leafText false cs).toList) = id := by
    funext cs
    simp [leafText]
  simp only [value]
  split
  · simp only [Value.write, List.map_map, Function.comp_def, hleaf, List.map_id_fun, id,
      List.reverse_cons, List.map_append, List.map_cons, List.map_nil, intercalate_concat, hopen,
      write, List.flatMap_map]
  · next h =>
    simp only [isComposite, Bool.not_eq_true, Bool.not_eq_false', Bool.and_eq_true,
      List.isEmpty_iff] at h
    simp [Value.write, leafText, write, h.1, h.2]

theorem separable_value (h : o.Separable d) (trims : Bool) : (o.value trims).Separable d := by
  simp only [value]
  split
  · constructor
    · intro hl
      refine h.parts ?_
      rintro hp
      simp [hp] at hl
    · intro pieces hm hl
      simp only [List.mem_map, List.mem_reverse, List.mem_cons] at hm
      obtain ⟨part, rfl | hm, rfl⟩ := hm
      · refine h.pieces ?_
        rintro hp
        simp [openPart, hp] at hl
      · exact h.pieces_of_part part hm (by simpa using hl)
  · trivial

theorem write_step (hk : d.classify c ≠ .release) (h : o.step c (d.classify c) = .grown o') :
    o'.write d = o.write d ++ [c] := by
  cases step_eq_grown h with
  | data => simp [write, push]
  | release => contradiction
  | subElement _ hs =>
    have hc : d.subElement = some c := Delimiters.character?_of_classify hs (by simp)
    simp only [write, endPart, openPart, List.reverse_cons, intercalate_concat,
      List.flatMap_append, List.flatMap_cons, List.flatMap_nil, hc]
    simp
  | subSubElement _ hs =>
    have hc : d.subSubElement = some c := Delimiters.character?_of_classify hs (by simp)
    simp [write, endPiece, hc]

theorem separable_step (hs : o.Separable d) (h : o.step c (d.classify c) = .grown o') :
    o'.Separable d := by
  cases step_eq_grown h with
  | data => exact ⟨hs.parts, hs.pieces, hs.pieces_of_part⟩
  | release => exact ⟨hs.parts, hs.pieces, hs.pieces_of_part⟩
  | subElement _ hc =>
    have hc : d.subElement = some c := Delimiters.character?_of_classify hc (by simp)
    refine ⟨fun _ ↦ by simp [hc], fun hn ↦ absurd rfl hn, ?_⟩
    intro part hm hl
    rcases List.mem_cons.1 hm with rfl | hm
    · refine hs.pieces ?_
      rintro hp
      simp [openPart, hp] at hl
    · exact hs.pieces_of_part part hm hl
  | subSubElement _ hc =>
    have hc : d.subSubElement = some c := Delimiters.character?_of_classify hc (by simp)
    exact ⟨hs.parts, fun _ ↦ by simp [hc], hs.pieces_of_part⟩

end Occurrence

def Field.write (d : Delimiters) (f : Field) : List Char :=
  d.mark f.repeats ++ f.value.write d String.toList

structure Field.Separable (d : Delimiters) (f : Field) : Prop where
  mark : f.repeats → d.repetition.isSome
  value : f.value.Separable d

namespace Segment

/-- A segment as it is written where nothing has to be released. -/
def write (d : Delimiters) (s : Segment) : List Char :=
  s.tag.toList ++ s.fields.flatMap (Field.write d) ++ [d.terminator]

def Part.write (d : Delimiters) : Part → List Char
  | tag letters => letters.reverse
  | body b => b.tag.toList ++ b.fields.reverse.flatMap (Field.write d) ++
      (d.mark b.repeats ++ b.current.write d)

def Part.Separable (d : Delimiters) : Part → Prop
  | tag _ => True
  | body b => (∀ f ∈ b.fields, f.Separable d) ∧ (b.repeats → d.repetition.isSome) ∧
      b.current.Separable d

structure Part.Shows (d : Delimiters) (cs : List Char) (p : Part) : Prop where
  settled : p.Settled
  write : p.write d = cs
  separable : p.Separable d

variable {d : Delimiters} {maxLength start offset : Nat} {p p' : Part} {b : Body} {c : Char}
  {cs : List Char} {s : Segment}

theorem Part.Shows.endOccurrence (h : (Part.body b).Shows d cs) (stop : Nat) (repeats : Bool)
    (hc : repeats → d.repetition.isSome) :
    (Part.body (b.endOccurrence false stop repeats)).Shows d (cs ++ d.mark repeats) := by
  obtain ⟨-, hw, hf, hr, hs⟩ := h
  refine ⟨rfl, ?_, ?_, hc, by constructor <;> simp [Body.endOccurrence]⟩
  · have he : Occurrence.write d {} = [] := by simp [Occurrence.write]
    rw [← hw]
    simp [Part.write, Body.endOccurrence, Field.write, Occurrence.write_value, he]
  · intro f hm
    rcases List.mem_cons.1 hm with rfl | hm
    · exact ⟨hr, Occurrence.separable_value hs false⟩
    · exact hf f hm

theorem recognizer_feed_shows (htag : d.tag = none) (hk : d.classify c ≠ .release)
    (h : p.Shows d cs)
    (hf : (recognizer d false maxLength start).feed p offset c (d.classify c) = .more p') :
    p'.Shows d (cs ++ [c]) := by
  have hset := settled_of_feed_more hk h.settled hf
  cases recognizer_feed_eq_more hf with
  | @letter letters =>
    have hw : letters.reverse = cs := h.write
    exact ⟨hset, by simp [Part.write, hw], trivial⟩
  | @tagEnd letters hc =>
    have hw : letters.reverse = cs := h.write
    have hc : some d.field = some c := by
      rcases hc with hc | ⟨-, hc⟩
      · exact Delimiters.character?_of_classify hc (by simp)
      · simp [htag] at hc
    refine ⟨hset, ?_, by simp, by simp, by constructor <;> simp⟩
    simp [Part.write, Delimiters.mark, Occurrence.write, hw, Option.some.inj hc]
  | grown ho =>
    obtain ⟨-, hw, hfs, hr, hs⟩ := h
    refine ⟨hset, ?_, hfs, hr, Occurrence.separable_step hs ho⟩
    rw [← hw]
    simp [Part.write, Occurrence.write_step hk ho]
  | @ended b sep ho hsep =>
    have hend := h.endOccurrence (offset - 1) (sep = .repetition)
    have hc := Occurrence.step_ended ho
    cases sep with
    | field =>
      have hc : some d.field = some c := Delimiters.character?_of_classify hc (by simp)
      rw [← Option.some.inj hc]
      exact hend (by simp)
    | repetition =>
      have hc : d.repetition = some c := Delimiters.character?_of_classify hc (by simp)
      simpa [Delimiters.mark, hc] using hend (by simp [hc])
    | terminator => exact absurd rfl hsep

theorem recognizer_take_shows (h : p.Shows d cs)
    (hf : (recognizer d false maxLength start).feed p offset c (d.classify c) = .take (.ok s)) :
    s.write d = cs ++ [c] ∧ ∀ f ∈ s.fields, f.Separable d := by
  cases recognizer_feed_eq_take hf with
  | @tag letters hk =>
    have hw : letters.reverse = cs := h.write
    have hc : some d.terminator = some c := Delimiters.character?_of_classify hk (by simp)
    exact ⟨by simp [write, hw, Option.some.inj hc], nofun⟩
  | @body b ho =>
    have hend := h.endOccurrence (offset - 1) false (by simp)
    have hc : some d.terminator = some c :=
      Delimiters.character?_of_classify (Occurrence.step_ended ho) (by simp)
    -- The body counts the mark of an element that does not come.
    have hw : b.tag.toList ++
        (b.endOccurrence false (offset - 1) false).fields.reverse.flatMap (Field.write d) ++
        (d.mark false ++ Occurrence.write d {}) = cs ++ d.mark false := hend.write
    have he : Occurrence.write d {} = [] := by simp [Occurrence.write]
    rw [he, List.append_nil] at hw
    refine ⟨?_, fun f hm ↦ hend.separable.1 f (List.mem_reverse.1 hm)⟩
    rw [write, ← Option.some.inj hc, ← List.append_cancel_right hw]

theorem write_of_answers (htag : d.tag = none) (hcs : ∀ b ∈ cs, d.classify b ≠ .release)
    (h : (recognizer d false maxLength start).Answers d offset (.tag []) cs c s) :
    s.write d = cs ++ [c] ∧ ∀ f ∈ s.fields, f.Separable d := by
  revert hcs
  refine h.invariant
    (p := fun cs p ↦ (∀ b ∈ cs, d.classify b ≠ .release) → p.Shows d cs)
    (q := fun cs c s ↦ (∀ b ∈ cs, d.classify b ≠ .release) →
      s.write d = cs ++ [c] ∧ ∀ f ∈ s.fields, f.Separable d) ?_ ?_ ?_
  · exact fun _ ↦ ⟨trivial, rfl, trivial⟩
  · intro cs c p p' hp hf hcs
    obtain ⟨hcs, hc⟩ := List.forall_mem_append.1 hcs
    exact recognizer_feed_shows htag (hc c (by simp)) (hp hcs) hf
  · intro cs c p s hp hf hcs
    exact recognizer_take_shows (hp hcs) hf

end Segment

/-- Nothing is lost of a segment in which no character is released: its tag and its fields, each
after its mark and with its separators, make up the text that was read, and these marks and
separators are all configured. -/
theorem Scanner.segment_lossless {t u : Scanner} {s : Segment} (htag : t.delimiters.tag = none)
    (htrims : t.trims = false) (h : t.segment = (.ok (some s), u))
    (hr : ∀ c ∈ u.lastSegmentText.toList, t.delimiters.classify c ≠ .release) :
    u.lastSegmentText.toList = s.write t.delimiters ∧ ∀ f ∈ s.fields, f.Separable t.delimiters := by
  obtain ⟨v, cs, c, -, ha, hu, -⟩ := segment_answers h
  rw [htrims] at ha
  have ht : u.lastSegmentText.toList = cs ++ [c] := by
    rw [lastSegmentText, hu, List.reverse_reverse, String.toList_ofList]
  rw [ht] at hr ⊢
  obtain ⟨hw, hs⟩ := Segment.write_of_answers htag (List.forall_mem_append.1 hr).1 ha
  exact ⟨hw.symm, hs⟩

/-- One character has two roles, and there are empty pieces and an empty element. -/
theorem Scanner.segment_lossless_clashing :
    let d : Delimiters :=
      { field := '+', terminator := '\'', subElement := some ':', subSubElement := some '&',
        repetition := some ':' }
    let t := ofRemainder d { trims := false } { source := .text " BC+ x:y&&z:+'D'".toList }
    let s : Segment :=
      ⟨"BC", [⟨1, false, .composite [[" x"], ["y", "", "z"], [""]], ⟨4, 12⟩⟩,
        ⟨2, false, .simple "", ⟨13, 13⟩⟩], ⟨1, 14⟩⟩
    ∃ u, t.segment = (.ok (some s), u) ∧ u.lastSegmentText = "BC+ x:y&&z:+'" ∧
      u.lastSegmentText.toList = s.write d ∧ ∀ f ∈ s.fields, f.Separable d := by
  intro d t s
  have hs : t.segment.1 = .ok (some s) := by decide +kernel
  have hr : t.segment.2.lastSegmentText.toList.all (d.classify · ≠ .release) := by decide +kernel
  exact ⟨t.segment.2, Prod.ext hs rfl, by decide +kernel, segment_lossless rfl rfl
    (Prod.ext hs rfl) fun c hc ↦ of_decide_eq_true (List.all_eq_true.1 hr c hc)⟩

end Edi
