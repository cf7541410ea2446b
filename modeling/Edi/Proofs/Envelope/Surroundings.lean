import Edi.Proofs.Envelope.Standing
import Edi.Proofs.Event.Surroundings

namespace Edi

namespace Emission

@[simp] theorem events_append (es fs : List Emission) :
    events (es ++ fs) = events es ++ events fs :=
  List.filterMap_append

@[simp] theorem events_map_event (es : List Event) : events (es.map .event) = es := by
  simp [events, Function.comp_def]

@[simp] theorem closings_append (es fs : List Emission) :
    closings (es ++ fs) = closings es ++ closings fs :=
  List.filterMap_append

@[simp] theorem closings_map_event (es : List Event) : closings (es.map .event) = [] := by
  simp [closings, Function.comp_def]

end Emission

namespace LoopNesting

variable {rest : List (String × Attributes)} {addresses : List Attributes}

def elements (frames : List Frame) : List (String × Attributes) :=
  (frames.filterMap Frame.name).map fun name ↦ (ElementName.loop, .ofList [("Id", name)])

theorem elements_append (closed kept : List Frame) :
    elements (closed ++ kept) = elements closed ++ elements kept := by
  simp [elements]

theorem lookup_elements {name : String} (hn : name ≠ ElementName.loop) (frames : List Frame) :
    (elements frames ++ rest).lookup name = rest.lookup name := by
  have hl : (elements frames).lookup name = none := by
    refine List.lookup_eq_none_iff.2 fun p hp ↦ ?_
    obtain ⟨_, -, rfl⟩ := List.mem_map.1 hp
    simpa using hn
  rw [List.lookup_append, hl, Option.none_or]

theorem after_endEvents (closed : List Frame) :
    Surroundings.after { around := elements closed ++ rest, addresses } (endEvents closed) =
      { around := rest, addresses } := by
  induction closed with
  | nil => rfl
  | cons f fs ih =>
    cases hf : f.name with
    | none => simpa [elements, endEvents, hf] using ih
    | some name => simpa [elements, endEvents, hf, Surroundings.after, Surroundings.next] using ih

theorem after_close (deeper : Frame → Bool) (frames : List Frame) :
    Surroundings.after { around := elements frames ++ rest, addresses }
        (endEvents (frames.takeWhile deeper)) =
      { around := elements (frames.dropWhile deeper) ++ rest, addresses } := by
  have h : Surroundings.after
      { around := elements (frames.takeWhile deeper) ++ (elements (frames.dropWhile deeper) ++ rest)
        addresses } (endEvents (frames.takeWhile deeper)) =
      { around := elements (frames.dropWhile deeper) ++ rest, addresses } := after_endEvents _
  rwa [← List.append_assoc, ← elements_append, List.takeWhile_append_dropWhile] at h

theorem after_apply (r : LoopRule) (n : LoopNesting) :
    Surroundings.after { around := elements n.frames ++ rest, addresses } (n.apply r).2.1 =
      { around := elements (n.apply r).2.2.frames ++ rest, addresses } := by
  cases hl : r.loop with
  | none =>
    simp only [apply, hl]
    split
    · rfl
    · exact after_close _ _
  | some name =>
    simp only [apply, hl]
    split
    · exact after_close _ _
    · rw [Surroundings.after_append, after_close]
      rfl

theorem after_transition (tag : String) (n : LoopNesting) :
    Surroundings.after { around := elements n.frames ++ rest, addresses }
        (n.transition tag).2.1 =
      { around := elements (n.transition tag).2.2.frames ++ rest, addresses } := by
  simp only [transition]
  split
  · rfl
  · exact after_apply _ n

end LoopNesting

def Party.attributes (p : Party) : Attributes :=
  (Attributes.ofList [("Id", p.id)]).insertNonempty "Qual" p.qualifier

namespace Envelope

def attributes (e : Envelope) : Attributes :=
  (Attributes.ofList [("Standard", e.standard.name)]).extend e.header.attributes.entries

def outerElements (e : Envelope) : List (String × Attributes) :=
  e.group.toList.map (fun g ↦ (ElementName.group, g.header.attributes)) ++
    if e.phase = .done then [] else [(ElementName.interchange, e.attributes)]

/-- The elements that an envelope has open, innermost first. -/
def elements (e : Envelope) : List (String × Attributes) :=
  match e.document with
  | none => e.outerElements
  | some d =>
    LoopNesting.elements d.loops.frames ++
      (ElementName.transaction, d.header.attributes) :: e.outerElements

/-- What stands around the place that an envelope has come to, inside of `base`. -/
def surroundings (base : List (String × Attributes)) (e : Envelope) : Surroundings :=
  { around := e.elements ++ base
    addresses := [e.header.sender.attributes, e.header.receiver.attributes] }

variable {base : List (String × Attributes)} {tables : LoopTables} {s : Segment} {e : Envelope}
  {t : Transition} {role : Role}

theorem elements_of_document_none (hd : e.document = none) : e.elements = e.outerElements := by
  simp [elements, hd]

theorem elements_of_document {d : OpenDocument} (hd : e.document = some d) :
    e.elements = LoopNesting.elements d.loops.frames ++
      (ElementName.transaction, d.header.attributes) :: e.outerElements := by
  simp [elements, hd]

theorem lookup_group : (e.outerElements ++ base).lookup ElementName.group =
    (e.group.map (·.header.attributes)).or (base.lookup ElementName.group) := by
  cases hg : e.group <;> by_cases hp : e.phase = .done <;>
    simp [outerElements, hg, hp, List.lookup_cons, ElementName.group, ElementName.interchange]

theorem lookup_interchange (hp : e.phase ≠ .done) :
    (e.outerElements ++ base).lookup ElementName.interchange = some e.attributes := by
  cases hg : e.group <;>
    simp [outerElements, hg, hp, List.lookup_cons, ElementName.group, ElementName.interchange]

theorem lookup_transaction : (e.outerElements ++ base).lookup ElementName.transaction =
    base.lookup ElementName.transaction := by
  cases hg : e.group <;> by_cases hp : e.phase = .done <;>
    simp [outerElements, hg, hp, List.lookup_cons, ElementName.group, ElementName.interchange,
      ElementName.transaction]

theorem within?_transaction : (e.surroundings base).within? ElementName.transaction =
    (e.document.map (·.header.attributes)).or (base.lookup ElementName.transaction) := by
  simp only [Surroundings.within?, surroundings]
  cases hd : e.document with
  | none => rw [elements_of_document_none hd, lookup_transaction, Option.map_none, Option.none_or]
  | some d =>
    rw [elements_of_document hd, List.append_assoc, LoopNesting.lookup_elements (by decide),
      List.cons_append, List.lookup_cons_self, Option.map_some, Option.some_or]

theorem within?_group : (e.surroundings base).within? ElementName.group =
    (e.group.map (·.header.attributes)).or (base.lookup ElementName.group) := by
  have hn : (ElementName.group == ElementName.transaction) = false := by decide
  simp only [Surroundings.within?, surroundings]
  cases hd : e.document with
  | none => rw [elements_of_document_none hd, lookup_group]
  | some d =>
    rw [elements_of_document hd, List.append_assoc, LoopNesting.lookup_elements (by decide),
      List.cons_append, List.lookup_cons, hn, lookup_group]

theorem start_surroundings (x : Surroundings) (standard : Standard) (header : Segment) :
    x.after (start standard header).announced =
      (start standard header).next.surroundings x.around := by
  simp [start, Party.events, Surroundings.next, surroundings, elements, outerElements, attributes,
    Party.attributes, ElementName.interchange, ElementName.sender, ElementName.address,
    ElementName.receiver]

theorem surroundings_closeAll {d : OpenDocument} (hd : e.document = some d) :
    (e.surroundings base).after d.loops.closeAll.1 =
      { e.surroundings base with
        around := (ElementName.transaction, d.header.attributes) :: e.outerElements ++ base } := by
  simp only [surroundings, elements_of_document hd, List.append_assoc]
  exact LoopNesting.after_endEvents _

theorem groupOpened_surroundings (hd : e.document = none) (hg : e.group = none)
    (hp : e.phase ≠ .done) : (e.surroundings base).after (e.groupOpened s).announced =
      (e.groupOpened s).next.surroundings base := by
  let a := (GroupHeader.ofSegment e.standard s).value.attributes
  have ho : (e.groupOpened s).next.elements = (ElementName.group, a) :: e.elements := by
    simp [elements, outerElements, groupOpened, attributes, hd, hg, hp, a]
  calc (e.surroundings base).after (e.groupOpened s).announced
    _ = { e.surroundings base with around := (ElementName.group, a) :: e.elements ++ base } :=
      Surroundings.next_elementStart a (by decide) (by decide)
    _ = (e.groupOpened s).next.surroundings base := by
      rw [← ho]
      rfl

theorem groupClosed_surroundings {g : OpenGroup} (hd : e.document = none) (hg : e.group = some g)
    (hp : e.phase ≠ .done) :
    (e.surroundings base).next (.elementEnd ElementName.group) =
      (e.groupClosed s g).next.surroundings base := by
  have he : e.elements =
      (ElementName.group, g.header.attributes) :: (e.groupClosed s g).next.elements := by
    simp [elements, outerElements, groupClosed, attributes, hd, hg, hp]
  rw [Envelope.surroundings, he]
  exact Surroundings.next_elementEnd

theorem documentOpened_surroundings (hd : e.document = none) (hp : e.phase ≠ .done) :
    (e.surroundings base).after (e.documentOpened tables s).announced =
      (e.documentOpened tables s).next.surroundings base := by
  let h := DocumentHeader.ofSegment e.standard (e.group.bind (·.header.version)) s
  let a := h.value.attributes
  have ho : (e.documentOpened tables s).next.elements =
      (ElementName.transaction, a) :: e.elements := by
    have hr : (e.documentOpened tables s).next.outerElements = e.outerElements := by
      cases hg : e.group <;> simp [outerElements, documentOpened, attributes, hp, hg]
    rw [elements_of_document_none hd, ← hr]
    rfl
  calc (e.surroundings base).after (e.documentOpened tables s).announced
    _ = { e.surroundings base with
          around := (ElementName.transaction, a) :: e.elements ++ base } :=
      Surroundings.next_elementStart a (by decide) (by decide)
    _ = (e.documentOpened tables s).next.surroundings base := by
      rw [← ho]
      rfl

theorem documentClosed_surroundings {d : OpenDocument} (hd : e.document = some d)
    (hp : e.phase ≠ .done) :
    (e.surroundings base).after (d.loops.closeAll.1 ++ [.elementEnd ElementName.transaction]) =
      (e.documentClosed s d).next.surroundings base := by
  have ho : (e.documentClosed s d).next.elements = e.outerElements := by
    simp [elements, outerElements, documentClosed, attributes, hp]
  calc (e.surroundings base).after (d.loops.closeAll.1 ++ [.elementEnd ElementName.transaction])
    _ = { e.surroundings base with around := e.outerElements ++ base } := by
      rw [Surroundings.after_append, surroundings_closeAll hd]
      exact Surroundings.next_elementEnd
    _ = (e.documentClosed s d).next.surroundings base := by
      rw [← ho]
      rfl

theorem interchangeClosed_surroundings (h : InterchangeHeader) (hd : e.document = none)
    (hg : e.group = none) (hp : e.phase ≠ .done) :
    (e.surroundings base).next (.elementEnd ElementName.interchange) =
      (e.interchangeClosed s h).next.surroundings base := by
  have he : e.elements = [(ElementName.interchange, e.attributes)] := by
    simp [elements, outerElements, hd, hg, hp]
  have ho : (e.interchangeClosed s h).next.elements = [] := by
    simp [elements, outerElements, interchangeClosed, hd, hg]
  rw [Envelope.surroundings, he, Envelope.surroundings, ho]
  exact Surroundings.next_elementEnd

theorem dataMet_surroundings {d : OpenDocument} (hd : e.document = some d)
    (hp : e.phase ≠ .done) :
    (e.surroundings base).after (e.dataMet s d).announced =
      (e.dataMet s d).next.surroundings base := by
  let outer := (ElementName.transaction, d.header.attributes) :: e.outerElements
  have ho : (e.dataMet s d).next.elements =
      LoopNesting.elements (d.loops.transition s.tag).2.2.frames ++ outer := by
    have hr : (e.dataMet s d).next.outerElements = e.outerElements := by
      simp [outerElements, dataMet, Transition.plain, hp, attributes]
    simp only [outer, ← hr]
    rfl
  calc (e.surroundings base).after (e.dataMet s d).announced
    _ = Surroundings.after
          { e.surroundings base with
            around := LoopNesting.elements d.loops.frames ++ (outer ++ base) }
          (d.loops.transition s.tag).2.1 := by
      simp only [dataMet, Transition.plain, Surroundings.after_append, Surroundings.after_segment,
        Envelope.surroundings, elements_of_document hd, List.append_assoc, outer]
    _ = { e.surroundings base with around := (e.dataMet s d).next.elements ++ base } := by
      rw [LoopNesting.after_transition, ho, List.append_assoc]
    _ = (e.dataMet s d).next.surroundings base := rfl

theorem Passes.surroundings_halted (h : Passes tables s e role t) (hp : e.phase ≠ .done) :
    (e.surroundings base).after t.announced = t.halted.surroundings base := by
  cases h with
  | groupHeader hd hg hn => exact groupOpened_surroundings hd hg hp
  | documentHeader hd hn => exact documentOpened_surroundings hd hp
  | data d _ hr hd => exact dataMet_surroundings hd hp
  | groupTrailer g hd hg => rfl
  | documentTrailer d hd => rfl
  | interchangeTrailer h hd hg hi =>
    simp [interchangeClosed, Envelope.surroundings, elements, outerElements, attributes, hd, hg,
      hp]
  | interchangeData hd hg => exact Surroundings.after_segment s

/-- What is handed out opens and closes the elements that the envelope says are open. -/
theorem Passes.surroundings_next (h : Passes tables s e role t) (hp : e.phase ≠ .done) :
    (e.surroundings base).after (t.announced ++ Emission.events t.completed) =
      t.next.surroundings base := by
  have ha : (e.surroundings base).after t.announced = t.halted.surroundings base :=
    h.surroundings_halted hp
  rw [Surroundings.after_append]
  cases h with
  | groupHeader hd hg hn => exact ha
  | documentHeader hd hn => exact ha
  | data d _ hr hd => exact ha
  | interchangeData hd hg => exact ha
  | groupTrailer g hd hg => exact groupClosed_surroundings hd hg hp
  | documentTrailer d hd =>
    have hc : Emission.events (e.documentClosed s d).completed =
        d.loops.closeAll.1 ++ [.elementEnd ElementName.transaction] := by
      simp [documentClosed, Emission.events, Function.comp_def]
    rw [hc]
    exact documentClosed_surroundings hd hp
  | interchangeTrailer h hd hg hi => exact interchangeClosed_surroundings h hd hg hp

end Envelope

end Edi
