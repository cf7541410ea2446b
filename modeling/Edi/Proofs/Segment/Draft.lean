import Edi.Proofs.Scanner.Ahead
import Edi.Proofs.Scanner.Trace
import Edi.Proofs.Segment.Written

namespace Edi

/-- What a segment says of an occurrence, wherever it stands in the stream. -/
structure Entry where
  position : Nat
  repeats : Bool
  value : Value
  deriving DecidableEq, Repr

def Field.entry (f : Field) : Entry := ⟨f.position, f.repeats, f.value⟩

def Entry.ofElement (position : Nat) : List Value → List Entry
  | [] => []
  | v :: vs => ⟨position, false, v⟩ :: vs.map (⟨position, true, ·⟩)

def Entry.ofElements (elements : List (List Value)) : List Entry :=
  (elements.zipIdx 1).flatMap fun (occurrences, position) ↦ ofElement position occurrences

theorem Entry.ofElement_concat (position : Nat) (vs : List Value) (v : Value) :
    ofElement position (vs ++ [v]) = ofElement position vs ++ [⟨position, !vs.isEmpty, v⟩] := by
  cases vs <;> simp [ofElement]

theorem Entry.ofElements_concat (elements : List (List Value)) (occurrences : List Value) :
    ofElements (elements ++ [occurrences]) =
      ofElements elements ++ ofElement (elements.length + 1) occurrences := by
  simp [ofElements, List.zipIdx_append, Nat.add_comm]

/-- A segment that is to be written: its tag, and for each element its occurrences. -/
structure Draft where
  tag : String
  elements : List (List Value)
  deriving DecidableEq, Repr

namespace Draft

def writeElement (d : Delimiters) (occurrences : List Value) : List Char :=
  d.field :: d.repetition.toList.intercalate (occurrences.map (Value.write d d.escape))

def write (d : Delimiters) (s : Draft) : List Char :=
  s.tag.toList ++ s.elements.flatMap (writeElement d) ++ [d.terminator]

structure Writable (d : Delimiters) (maxLength : Nat) (s : Draft) : Prop where
  tag_ne_nil : s.tag.toList ≠ []
  tag_length : s.tag.length ≤ Segment.maxTagLength
  letter : ∀ c ∈ s.tag.toList, Segment.isTagLetter c
  ne_nil : ∀ occurrences ∈ s.elements, occurrences ≠ []
  repetition : ∀ occurrences ∈ s.elements, 1 < occurrences.length → d.repetition.isSome
  value : ∀ occurrences ∈ s.elements, ∀ v ∈ occurrences, v.Writable d maxLength

end Draft

theorem Text.isBlankChar_of_isTagLetter {c : Char} (h : Segment.isTagLetter c) :
    Text.isBlankChar c = false := by
  have h : (decide ('A'.val ≤ c.val ∧ c.val ≤ 'Z'.val) ||
      (decide ('a'.val ≤ c.val) && decide (c.val ≤ 'z'.val)) ||
      (decide ('0'.val ≤ c.val) && decide (c.val ≤ '9'.val))) = true := h
  have hc : (65 ≤ c.toNat ∧ c.toNat ≤ 90 ∨ 97 ≤ c.toNat ∧ c.toNat ≤ 122) ∨
      48 ≤ c.toNat ∧ c.toNat ≤ 57 := by
    simpa [UInt32.le_iff_toNat_le] using h
  have hb : c ≠ '\uFEFF' := by
    rintro rfl
    exact absurd hc (by decide)
  simp [isBlankChar, isWhite, hb]
  omega

namespace Delimiters

variable {d : Delimiters}

theorem Unambiguous.letter {c : Char} (hd : d.Unambiguous) (hc : Segment.isTagLetter c) :
    d.Letter c := by
  have hn : c ∉ d.configured := fun hm ↦ by simp [hd.not_letter c hm] at hc
  refine ⟨hc, ?_, ?_, Text.isBlankChar_of_isTagLetter hc⟩
  · by_contra hk
    exact hn (mem_configured (character?_of_classify rfl hk))
  · intro ht
    exact hn (List.mem_append_right _ (by simp [← ht]))

theorem Unambiguous.mark_eq {repeats : Bool} (hd : d.Unambiguous)
    (hr : repeats → d.repetition.isSome) :
    ∃ c, d.mark repeats = [c] ∧ d.classify c = if repeats then .repetition else .field := by
  cases repeats with
  | false => exact ⟨d.field, rfl, classify_of_character? hd.nodup rfl⟩
  | true =>
    obtain ⟨c, hc⟩ := Option.isSome_iff_exists.1 (hr rfl)
    exact ⟨c, by simp [mark, hc], classify_of_character? hd.nodup hc⟩

end Delimiters

/-- What is written of several items with a separator between them leads to a state that stands for
all of them, if each item leads on from the separator before it and each separator from the items
before it. -/
theorem Recognizer.Leads.intercalate {σ α β : Type} {m : Recognizer σ α} {d : Delimiters}
    {sep : List Char} {f : β → List Char} {p q : List β → σ → Prop} {items : List β}
    (hne : items ≠ [])
    (h : ∀ done x todo, items = done ++ x :: todo → m.Leads d (f x) (p done) (q (done ++ [x])))
    (hsep : ∀ done todo, items = done ++ todo → done ≠ [] → 1 < items.length →
      m.Leads d sep (q done) (p done)) :
    m.Leads d (sep.intercalate (items.map f)) (p []) (q items) := by
  rcases List.eq_nil_or_concat items with rfl | ⟨front, last, rfl⟩
  · contradiction
  rw [List.concat_eq_append] at h hsep ⊢
  rw [List.map_append, List.map_singleton, intercalate_concat, List.flatMap_map]
  refine .trans (.flatMap (p := p) ?_) (h front last [] rfl)
  rintro done x todo rfl
  have hlen : 1 < (done ++ x :: todo ++ [last]).length := by
    simp only [List.length_append, List.length_cons]
    omega
  refine (h done x (todo ++ [last]) (by simp)).trans ?_
  exact hsep (done ++ [x]) (todo ++ [last]) (by simp) (by simp) hlen

namespace Occurrence

variable {o : Occurrence} {parts : List (List String)} {pieces : List String} {leaf : List Char}
  {n : Nat}

/-- So far the occurrence has these parts and so many characters, and a separator would end it. -/
structure Has (parts : List (List String)) (n : Nat) (o : Occurrence) : Prop where
  parts : (o.openPart :: o.parts).reverse.map (·.map String.ofList) = parts
  length : o.length = n
  released : o.released = false

theorem has_empty : Has [[""]] 0 {} := ⟨rfl, rfl, rfl⟩

theorem has_iff_concat : o.Has (parts ++ [pieces]) n ↔
    o.parts.reverse.map (·.map String.ofList) = parts ∧ o.openPart.map String.ofList = pieces ∧
      o.length = n ∧ o.released = false := by
  constructor
  · rintro ⟨hp, hl, hr⟩
    rw [List.reverse_cons, List.map_append] at hp
    obtain ⟨hps, hop⟩ := List.append_inj' hp rfl
    exact ⟨hps, List.singleton_inj.1 hop, hl, hr⟩
  · rintro ⟨rfl, rfl, hl, hr⟩
    exact ⟨by simp, hl, hr⟩

theorem Has.push (h : o.Has (parts ++ [pieces ++ [String.ofList leaf]]) n) (c : Char) :
    (o.push c).Has (parts ++ [pieces ++ [String.ofList (leaf ++ [c])]]) (n + 1) := by
  obtain ⟨hps, hop, rfl, -⟩ := has_iff_concat.1 h
  rw [openPart, List.reverse_cons, List.map_append] at hop
  obtain ⟨hpieces, hl⟩ := List.append_inj' hop rfl
  have hl : o.leaf.reverse = leaf := String.ofList_injective (List.singleton_inj.1 hl)
  refine has_iff_concat.2 ⟨hps, ?_, rfl, rfl⟩
  simp [openPart, Occurrence.push, ← hpieces, ← hl]

theorem Has.endPiece (h : o.Has (parts ++ [pieces]) n) :
    o.endPiece.Has (parts ++ [pieces ++ [""]]) n := by
  obtain ⟨hps, rfl, rfl, hr⟩ := has_iff_concat.1 h
  refine has_iff_concat.2 ⟨hps, ?_, rfl, hr⟩
  simp [Occurrence.endPiece, openPart]

theorem Has.endPart (h : o.Has parts n) : o.endPart.Has (parts ++ [[""]]) n := by
  obtain ⟨rfl, rfl, hr⟩ := h
  exact has_iff_concat.2 ⟨rfl, rfl, rfl, hr⟩

theorem Has.value_simple {text : String} (h : o.Has [[text]] n) :
    o.value false = .simple text := by
  have h : o.Has ([] ++ [[text]]) n := h
  obtain ⟨hps, hop, -, -⟩ := has_iff_concat.1 h
  have hps : o.parts = [] := by simpa using hps
  have hpn : o.pieces = [] := by simpa [openPart] using congrArg List.length hop
  have hl : String.ofList o.leaf.reverse = text := by simpa [openPart, hpn] using hop
  simp [Occurrence.value, isComposite, leafText, hps, hpn, hl]

theorem Has.value_composite (h : o.Has parts n) (hc : 1 < parts.flatten.length) :
    o.value false = .composite parts := by
  obtain ⟨rfl, -, -⟩ := h
  have hc : o.isComposite := by
    by_contra hn
    have hn : o.pieces = [] ∧ o.parts = [] := by simpa [isComposite] using hn
    simp [hn, openPart] at hc
  simp [Occurrence.value, hc, leafText]

end Occurrence

namespace Segment

variable {d : Delimiters} {maxLength start n : Nat} {b : Body} {p : Part} {c : Char}
  {parts : List (List String)} {pieces : List String}

def Part.Within (b : Body) (parts : List (List String)) (n : Nat) (p : Part) : Prop :=
  ∃ o, p = .body { b with current := o } ∧ o.Has parts n

theorem advances_grown {o o' : Occurrence} (h : o.step c (d.classify c) = .grown o')
    (hl : o'.length ≤ maxLength) (offset : Nat) :
    (recognizer d false maxLength start).Advances d offset (.body { b with current := o }) [c]
      (.body { b with current := o' }) := by
  refine .one ?_
  simp [recognizer, h, Nat.not_lt.2 hl]

theorem leads_character (hd : d.Unambiguous) {leaf : List Char} (c : Char) (hl : n < maxLength) :
    (recognizer d false maxLength start).Leads d (d.escapeCharacter c)
      (Part.Within b (parts ++ [pieces ++ [String.ofList leaf]]) n)
      (Part.Within b (parts ++ [pieces ++ [String.ofList (leaf ++ [c])]]) (n + 1)) := by
  rintro _ ⟨o, rfl, ho⟩ offset
  have hg : (o.push c).length ≤ maxLength := by
    rw [(ho.push c).length]
    exact hl
  refine ⟨_, ?_, o.push c, rfl, ho.push c⟩
  rw [Delimiters.escapeCharacter]
  split
  · obtain ⟨r, hr⟩ := Option.isSome_iff_exists.1 hd.release
    have hk : d.classify r = .release := Delimiters.classify_of_character? hd.nodup hr
    rw [hr]
    have h₁ : o.step r (d.classify r) = .grown { o with released := true } := by
      simp [Occurrence.step, ho.released, hk]
    have h₂ : Occurrence.step c (d.classify c) { o with released := true } = .grown (o.push c) := by
      simp [Occurrence.step, Occurrence.push]
    exact (advances_grown h₁ (Nat.le_of_succ_le hg) offset).trans (advances_grown h₂ hg _)
  · next hc =>
    have hk : d.classify c = .data := by simpa [Delimiters.isDelimiter] using hc
    exact advances_grown (by simp [Occurrence.step, ho.released, hk]) hg offset

theorem leads_leaf (hd : d.Unambiguous) (leaf : String) (hl : n + leaf.length ≤ maxLength) :
    (recognizer d false maxLength start).Leads d (d.escape leaf)
      (Part.Within b (parts ++ [pieces ++ [""]]) n)
      (Part.Within b (parts ++ [pieces ++ [leaf]]) (n + leaf.length)) := by
  have h : (recognizer d false maxLength start).Leads d (d.escape leaf)
      (Part.Within b (parts ++ [pieces ++ [""]]) n)
      (Part.Within b (parts ++ [pieces ++ [String.ofList leaf.toList]])
        (n + leaf.toList.length)) := by
    refine .flatMap (p := fun cs ↦
      Part.Within b (parts ++ [pieces ++ [String.ofList cs]]) (n + cs.length)) ?_
    intro cs c todo he
    rw [← leaf.length_toList, he, List.length_append, List.length_cons] at hl
    rw [List.length_append, List.length_singleton, ← Nat.add_assoc]
    exact leads_character hd c (by omega)
  rwa [String.ofList_toList, leaf.length_toList] at h

theorem leads_separator (hd : d.Unambiguous) {k : CharClass} {f : Occurrence → Occurrence}
    {parts' : List (List String)} (hf : ∀ o, o.Has parts n → (f o).Has parts' n)
    (hk : ∀ o c, o.released = false → Occurrence.step c k o = .grown (f o))
    (hs : (d.character? k).isSome) (hl : n ≤ maxLength) :
    (recognizer d false maxLength start).Leads d (d.character? k).toList
      (Part.Within b parts n) (Part.Within b parts' n) := by
  rintro _ ⟨o, rfl, ho⟩ offset
  obtain ⟨c, hc⟩ := Option.isSome_iff_exists.1 hs
  have hstep : o.step c (d.classify c) = .grown (f o) := by
    rw [Delimiters.classify_of_character? hd.nodup hc]
    exact hk o c ho.released
  have hlen : (f o).length ≤ maxLength := by rwa [(hf o ho).length]
  rw [hc]
  exact ⟨_, advances_grown hstep hlen offset, f o, rfl, hf o ho⟩

theorem leads_subSubElement (hd : d.Unambiguous) (hs : d.subSubElement.isSome)
    (hl : n ≤ maxLength) :
    (recognizer d false maxLength start).Leads d d.subSubElement.toList
      (Part.Within b (parts ++ [pieces]) n) (Part.Within b (parts ++ [pieces ++ [""]]) n) :=
  leads_separator hd (k := .subSubElement) (fun _ ho ↦ ho.endPiece)
    (fun _ _ hr ↦ by simp [Occurrence.step, hr]) hs hl

theorem leads_subElement (hd : d.Unambiguous) (hs : d.subElement.isSome) (hl : n ≤ maxLength) :
    (recognizer d false maxLength start).Leads d d.subElement.toList
      (Part.Within b parts n) (Part.Within b (parts ++ [[""]]) n) :=
  leads_separator hd (k := .subElement) (fun _ ho ↦ ho.endPart)
    (fun _ _ hr ↦ by simp [Occurrence.step, hr]) hs hl

theorem leads_part (hd : d.Unambiguous) (hne : pieces ≠ [])
    (hs : 1 < pieces.length → d.subSubElement.isSome)
    (hl : n + (pieces.flatMap String.toList).length ≤ maxLength) :
    (recognizer d false maxLength start).Leads d
      (d.subSubElement.toList.intercalate (pieces.map d.escape))
      (Part.Within b (parts ++ [[""]]) n)
      (Part.Within b (parts ++ [pieces]) (n + (pieces.flatMap String.toList).length)) := by
  refine .intercalate
    (p := fun pieces ↦
      Part.Within b (parts ++ [pieces ++ [""]]) (n + (pieces.flatMap String.toList).length))
    (q := fun pieces ↦
      Part.Within b (parts ++ [pieces]) (n + (pieces.flatMap String.toList).length)) hne ?_ ?_
  · rintro done leaf todo rfl
    simp only [List.flatMap_append, List.flatMap_cons, List.flatMap_nil, List.append_nil,
      List.length_append, String.length_toList, ← Nat.add_assoc] at hl ⊢
    exact leads_leaf hd leaf (by omega)
  · rintro done todo rfl - hlen
    rw [List.flatMap_append, List.length_append] at hl
    exact leads_subSubElement hd (hs hlen) (by omega)

theorem leads_parts (hd : d.Unambiguous) (hv : (Value.composite parts).Writable d maxLength) :
    (recognizer d false maxLength start).Leads d ((Value.composite parts).write d d.escape)
      (Part.Within b [[""]] 0) (Part.Within b parts (Value.composite parts).length) := by
  obtain ⟨⟨hne, hc⟩, ⟨hs, hss⟩, hl⟩ := hv
  refine .intercalate
    (p := fun parts ↦ Part.Within b (parts ++ [[""]]) (Value.composite parts).length)
    (q := fun parts ↦ Part.Within b parts (Value.composite parts).length) ?_ ?_ ?_
  · rintro rfl
    simp at hc
  · rintro done pieces todo rfl
    have hm : pieces ∈ done ++ pieces :: todo := by simp
    simp only [Value.length, List.flatMap_append, List.flatMap_cons, List.flatMap_nil,
      List.append_nil, List.length_append] at hl ⊢
    exact leads_part hd (fun h ↦ hne (h ▸ hm)) (hss pieces hm) (by omega)
  · rintro done todo rfl - hlen
    rw [Value.length, List.flatMap_append, List.length_append] at hl
    exact leads_subElement hd (hs hlen) (Nat.le_trans (Nat.le_add_right ..) hl)

theorem leads_value (hd : d.Unambiguous) {v : Value} (hv : v.Writable d maxLength) :
    (recognizer d false maxLength start).Leads d (v.write d d.escape) (Part.Within b [[""]] 0)
      fun p ↦ ∃ o, p = .body { b with current := o } ∧ o.released = false ∧ o.value false = v := by
  intro p hp offset
  cases v with
  | simple text =>
    have hl : 0 + text.length ≤ maxLength := by simpa [Value.length] using hv.length
    have hleaf : (recognizer d false maxLength start).Leads d (d.escape text)
        (Part.Within b ([] ++ [[] ++ [""]]) 0)
        (Part.Within b ([] ++ [[] ++ [text]]) (0 + text.length)) := leads_leaf hd text hl
    obtain ⟨_, ha, o, rfl, ho⟩ := hleaf p hp offset
    exact ⟨_, ha, o, rfl, ho.released, ho.value_simple⟩
  | composite parts =>
    obtain ⟨_, ha, o, rfl, ho⟩ := leads_parts hd hv p hp offset
    exact ⟨_, ha, o, rfl, ho.released, ho.value_composite hv.proper.2⟩

def Body.entries (b : Body) : List Entry :=
  b.fields.reverse.map Field.entry ++ [⟨b.position, b.repeats, b.current.value false⟩]

theorem Body.entries_endOccurrence (stop : Nat) (repeats : Bool) (b : Body) :
    (b.endOccurrence false stop repeats).fields.reverse.map Field.entry = b.entries := by
  simp [entries, endOccurrence, Field.entry]

/-- A separator would end the last occurrence that was read, which is one of the element at this
position, with position 0 before any element. -/
def Part.HasRead (tag : String) (position : Nat) (entries : List Entry) : Part → Prop
  | .tag letters =>
    letters ≠ [] ∧ String.ofList letters.reverse = tag ∧ position = 0 ∧ entries = []
  | .body b => b.current.released = false ∧ b.tag = tag ∧ b.position = position ∧
      b.entries = entries

def Part.Opened (tag : String) (position : Nat) (repeats : Bool) (entries : List Entry)
    (p : Part) : Prop :=
  ∃ b : Body, b.tag = tag ∧ b.position = position ∧ b.repeats = repeats ∧
    b.fields.reverse.map Field.entry = entries ∧ p.Within b [[""]] 0

variable {tag : String} {position : Nat} {repeats : Bool} {entries : List Entry}

theorem leads_mark (hd : d.Unambiguous) (hr : repeats → d.repetition.isSome ∧ position ≠ 0) :
    (recognizer d false maxLength start).Leads d (d.mark repeats)
      (Part.HasRead tag position entries)
      (Part.Opened tag (if repeats then position else position + 1) repeats entries) := by
  obtain ⟨c, hm, hk⟩ := hd.mark_eq fun h ↦ (hr h).1
  rw [hm]
  intro p hp offset
  cases p with
  | tag letters =>
    obtain ⟨hne, rfl, rfl, rfl⟩ := hp
    obtain rfl : repeats = false := by simpa using hr
    let b : Body := { tag := String.ofList letters.reverse, start := offset + 1 }
    refine ⟨.body b, .one ?_, b, rfl, rfl, rfl, rfl, _, rfl, Occurrence.has_empty⟩
    simp [recognizer, hk, hne, b]
  | body b =>
    obtain ⟨ho, rfl, rfl, rfl⟩ := hp
    let b' := b.endOccurrence false offset repeats
    refine ⟨.body b', .one ?_, b', rfl, rfl, rfl, b.entries_endOccurrence .., _, rfl,
      Occurrence.has_empty⟩
    cases repeats <;> simp [recognizer, Occurrence.step, ho, hk, b']

theorem leads_occurrence (hd : d.Unambiguous) {v : Value} (hv : v.Writable d maxLength) :
    (recognizer d false maxLength start).Leads d (v.write d d.escape)
      (Part.Opened tag position repeats entries)
      (Part.HasRead tag position (entries ++ [⟨position, repeats, v⟩])) := by
  rintro p ⟨b, rfl, rfl, rfl, rfl, hb⟩ offset
  obtain ⟨_, ha, o, rfl, ho, rfl⟩ := leads_value hd hv p hb offset
  exact ⟨_, ha, ho, rfl, rfl, rfl⟩

theorem leads_element (hd : d.Unambiguous) {occurrences : List Value} (hne : occurrences ≠ [])
    (hr : 1 < occurrences.length → d.repetition.isSome)
    (hv : ∀ v ∈ occurrences, v.Writable d maxLength) :
    (recognizer d false maxLength start).Leads d (Draft.writeElement d occurrences)
      (Part.HasRead tag position entries)
      (Part.HasRead tag (position + 1)
        (entries ++ Entry.ofElement (position + 1) occurrences)) := by
  have hfield : (recognizer d false maxLength start).Leads d (d.mark false)
      (Part.HasRead tag position entries) (Part.Opened tag (position + 1) false entries) :=
    leads_mark hd (by simp)
  have hoccurrences : (recognizer d false maxLength start).Leads d
      (d.repetition.toList.intercalate (occurrences.map (Value.write d d.escape)))
      (Part.Opened tag (position + 1) false (entries ++ Entry.ofElement (position + 1) []))
      (Part.HasRead tag (position + 1)
        (entries ++ Entry.ofElement (position + 1) occurrences)) := by
    refine .intercalate
      (p := fun vs ↦ Part.Opened tag (position + 1) (!vs.isEmpty)
        (entries ++ Entry.ofElement (position + 1) vs))
      (q := fun vs ↦ Part.HasRead tag (position + 1)
        (entries ++ Entry.ofElement (position + 1) vs)) hne ?_ ?_
    · rintro done v todo rfl
      rw [Entry.ofElement_concat, ← List.append_assoc]
      exact leads_occurrence hd (hv v (by simp))
    · rintro done todo rfl hdone hlen
      have hrepeats : (!done.isEmpty) = true := by simpa using hdone
      have hmark : (recognizer d false maxLength start).Leads d (d.mark true)
          (Part.HasRead tag (position + 1) (entries ++ Entry.ofElement (position + 1) done))
          (Part.Opened tag (position + 1) true
            (entries ++ Entry.ofElement (position + 1) done)) :=
        leads_mark hd fun _ ↦ ⟨hr hlen, Nat.succ_ne_zero _⟩
      rwa [hrepeats]
  rw [Entry.ofElement, List.append_nil] at hoccurrences
  exact hfield.trans hoccurrences

theorem leads_elements (hd : d.Unambiguous) {draft : Draft} (hw : draft.Writable d maxLength) :
    (recognizer d false maxLength start).Leads d
      (draft.elements.flatMap (Draft.writeElement d)) (Part.HasRead tag 0 [])
      (Part.HasRead tag draft.elements.length (Entry.ofElements draft.elements)) := by
  refine .flatMap (p := fun elements ↦
    Part.HasRead tag elements.length (Entry.ofElements elements)) ?_
  intro done occurrences todo he
  have hm : occurrences ∈ draft.elements := by simp [he]
  rw [Entry.ofElements_concat, List.length_append]
  exact leads_element hd (hw.ne_nil _ hm) (hw.repetition _ hm) (hw.value _ hm)

theorem leads_tag (hd : d.Unambiguous) {draft : Draft} (hw : draft.Writable d maxLength) :
    (recognizer d false maxLength start).Leads d draft.tag.toList (· = .tag [])
      (Part.HasRead draft.tag 0 []) := by
  have hl : (recognizer d false maxLength start).Leads d (draft.tag.toList.flatMap ([·]))
      (· = .tag []) (· = .tag draft.tag.toList.reverse) := by
    refine .flatMap (p := fun letters s ↦ s = Part.tag letters.reverse) ?_
    rintro done c todo he _ rfl offset
    have hc := hd.letter (hw.letter c (by simp [he]))
    have hlen := hw.tag_length
    rw [← draft.tag.length_toList, he, List.length_append, List.length_cons] at hlen
    refine ⟨_, .one (recognizer_feed_letter _ _ _ _ hc ?_), by simp⟩
    rw [List.length_reverse]
    omega
  rw [List.flatMap_singleton'] at hl
  intro p hp offset
  obtain ⟨_, ha, rfl⟩ := hl p hp offset
  exact ⟨_, ha, by simpa using hw.tag_ne_nil, by simp, rfl, rfl⟩

theorem take_of_hasRead (hd : d.Unambiguous) (hp : p.HasRead tag position entries) (offset : Nat) :
    ∃ s, (recognizer d false maxLength start).feed p offset d.terminator
        (d.classify d.terminator) = .take (.ok s) ∧
      s.tag = tag ∧ s.fields.map Field.entry = entries ∧ s.span = ⟨start, offset⟩ := by
  have hk : d.classify d.terminator = .terminator :=
    Delimiters.classify_of_character? hd.nodup rfl
  cases p with
  | tag letters =>
    obtain ⟨hne, rfl, -, rfl⟩ := hp
    exact ⟨⟨String.ofList letters.reverse, [], ⟨start, offset⟩⟩, by simp [recognizer, hk, hne], rfl,
      rfl, rfl⟩
  | body b =>
    obtain ⟨ho, rfl, -, rfl⟩ := hp
    let fields := (b.endOccurrence false (offset - 1) false).fields.reverse
    exact ⟨⟨b.tag, fields, ⟨start, offset⟩⟩, by simp [recognizer, Occurrence.step, hk, ho, fields],
      rfl, b.entries_endOccurrence (offset - 1) false, rfl⟩

/-- What is written of a draft stands for a segment that says the same. -/
theorem answers_write (hd : d.Unambiguous) {draft : Draft} (hw : draft.Writable d maxLength)
    (start offset : Nat) :
    ∃ s, (recognizer d false maxLength start).Answers d offset (.tag [])
        (draft.tag.toList ++ draft.elements.flatMap (Draft.writeElement d)) d.terminator s ∧
      s.tag = draft.tag ∧ s.fields.map Field.entry = Entry.ofElements draft.elements ∧
      s.span = ⟨start, offset + (draft.write d).length⟩ := by
  obtain ⟨p, ha, hp⟩ := (leads_tag hd hw).trans (leads_elements hd hw) _ rfl offset
  obtain ⟨s, hs, htag, hf, hspan⟩ := take_of_hasRead hd hp _
  refine ⟨s, ⟨p, ha, hs⟩, htag, hf, ?_⟩
  have hlen : (draft.write d).length =
      (draft.tag.toList ++ draft.elements.flatMap (Draft.writeElement d)).length + 1 :=
    List.length_append
  rw [hspan, hlen, Nat.add_assoc]

end Segment

end Edi
