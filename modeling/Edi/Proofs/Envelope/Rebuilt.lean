import Edi.Proofs.Envelope.Placed
import Edi.Proofs.Envelope.Stated
import Edi.Proofs.Segment.Numbered
import Edi.Proofs.Validation.Exact

namespace Edi

namespace Attributes

def values (names : List String) (a : Attributes) : List Value :=
  names.map fun name ↦ .simple (a.text name)

variable {name value : String} {es fs : List (String × String)}

theorem lookup_of_mem (hn : (es.map Prod.fst).Nodup) (h : (name, value) ∈ es) :
    es.lookup name = some value := by
  induction es with
  | nil => cases h
  | cons e es ih =>
    obtain ⟨he, hn⟩ := List.nodup_cons.1 hn
    rcases List.mem_cons.1 h with rfl | h
    · exact List.lookup_cons_self
    · have hne : name ≠ e.1 := by
        rintro rfl
        exact he (List.mem_map.2 ⟨_, h, rfl⟩)
      rw [List.lookup_cons, beq_false_of_ne hne]
      exact ih hn h

theorem values_extendNonempty_insert (es : List (String × String)) (name value : String)
    (fs : List (String × String)) (hn : ((es ++ (name, value) :: fs).map Prod.fst).Nodup) :
    (((empty.extendNonempty es).insert name value).extendNonempty fs).values
        ((es ++ (name, value) :: fs).map Prod.fst) =
      (es ++ (name, value) :: fs).map fun e ↦ .simple e.2 := by
  have hp : (es ++ (name, value) :: fs).Perm ((name, value) :: (es ++ fs)) := List.perm_middle
  obtain ⟨hname, hrest⟩ := List.nodup_cons.1 ((hp.map Prod.fst).nodup_iff.1 hn)
  rw [values, List.map_map]
  refine List.map_congr_left fun e he ↦ congrArg Value.simple ?_
  rcases List.mem_cons.1 (hp.mem_iff.1 he) with rfl | he
  · have hfs : name ∉ fs.map Prod.fst := fun hm ↦ hname (by simp [hm])
    rw [text, get?_extendNonempty hfs, get?_insert_self]
    rfl
  · have hne : e.1 ≠ name := fun hm ↦ hname (hm ▸ List.mem_map.2 ⟨e, he, rfl⟩)
    rw [text_extendNonempty_insert hrest hne, lookup_of_mem hrest he]
    rfl

end Attributes

structure Heading where
  level : Level
  values : List Value
  deriving DecidableEq, Repr

namespace Event

def address (name : String) (es : List Event) : Attributes :=
  (starts ElementName.address (es.dropWhile (!·.isStartOf name))).headD .empty

/-- The header of an X12 envelope that an event shows, together with the events `es` after it. -/
def heading? (es : List Event) : Event → Option Heading
  | elementStart name a =>
    if name = ElementName.interchange then
      some ⟨.interchange,
        a.values ["AuthorizationQual", "Authorization", "SecurityQual", "Security"] ++
          (address ElementName.sender es).values ["Qual", "Id"] ++
          (address ElementName.receiver es).values ["Qual", "Id"] ++
          a.values ["Date", "Time", "StandardsId", "Version", "Control", "AckRequest",
            "TestIndicator"]⟩
    else if name = ElementName.group then
      some ⟨.group, a.values ["GroupType", "ApplSender", "ApplReceiver", "Date", "Time", "Control",
        "StandardCode", "StandardVersion"]⟩
    else if name = ElementName.transaction then
      some ⟨.document, a.values ["DocType", "Control", "Version"]⟩
    else none
  | _ => none

def headings : List Event → List Heading
  | [] => []
  | e :: es => (e.heading? es).toList ++ headings es

/-- Whatever follows them, these events show the headers `hs`. -/
def Shows (us : List Event) (hs : List Heading) : Prop :=
  ∀ es, headings (us ++ es) = hs ++ headings es

variable {us vs : List Event} {hs gs : List Heading} {e : Event}

theorem Shows.headings (h : Shows us hs) : headings us = hs := by
  simpa [Event.headings] using h []

theorem Shows.append (h : Shows us hs) (h' : Shows vs gs) : Shows (us ++ vs) (hs ++ gs) := by
  intro es
  rw [List.append_assoc, h, h', List.append_assoc]

theorem shows_nil : Shows [] [] := fun _ ↦ rfl

theorem shows_singleton (h : ∀ es, (e.heading? es).toList = hs) : Shows [e] hs := fun es ↦ by
  rw [List.singleton_append, Event.headings, h]

def headingNames : List String :=
  [ElementName.interchange, ElementName.group, ElementName.transaction]

theorem shows_of_not_start (h : ∀ e ∈ us, ∀ name ∈ headingNames, e.isStartOf name = false) :
    Shows us [] := by
  induction us with
  | nil => exact shows_nil
  | cons e us ih =>
    obtain ⟨he, hus⟩ := List.forall_mem_cons.1 h
    have hs : Shows [e] [] := by
      refine shows_singleton fun es ↦ ?_
      cases e with
      | elementStart name a =>
        simp only [headingNames, List.forall_mem_cons, isStartOf, decide_eq_false_iff_not] at he
        simp [heading?, he]
      | _ => rfl
    exact hs.append (ih hus)

end Event

open Event

theorem Segment.shows_events (s : Segment) : Shows s.events [] := by
  refine shows_of_not_start fun e he name hm ↦ isStartOf_eq_false fun hn ↦ ?_
  have hd : ∀ name ∈ headingNames, name ∉ Segment.elementNames := by decide
  exact hd name hm (s.events_balanced.name_mem he hn)

theorem shows_of_unlooped {es : List Event} (h : es.filter (!·.isLoop) = []) : Shows es [] := by
  refine shows_of_not_start fun e he name hm ↦ isStartOf_eq_false fun hn ↦ ?_
  have hl := List.filter_eq_nil_iff.1 h _ he
  have hd : ∀ name ∈ headingNames, name ≠ ElementName.loop := by decide
  rw [Event.isLoop, hn] at hl
  exact hl (by simpa using hd name hm)

namespace Segment

def heading? (s : Segment) : Option Heading :=
  match Standard.x12.role s.tag with
  | .groupHeader => some ⟨.group, s.values 8⟩
  | .documentHeader => some ⟨.document, s.values 3⟩
  | _ => none

/-- If the segment is such a header, it has only simple elements, each of them once, and no more of
them than are handed out. -/
structure PlainHeader (s : Segment) : Prop where
  group : Standard.x12.role s.tag = .groupHeader → s.Plain 8
  document : Standard.x12.role s.tag = .documentHeader → s.Plain 3

instance (s : Segment) : Decidable s.PlainHeader :=
  decidable_of_iff ((Standard.x12.role s.tag = .groupHeader → s.Plain 8) ∧
      (Standard.x12.role s.tag = .documentHeader → s.Plain 3))
    ⟨fun h ↦ ⟨h.1, h.2⟩, fun h ↦ ⟨h.group, h.document⟩⟩

end Segment

theorem Party.values_attributes (p : Party) :
    p.attributes.values ["Qual", "Id"] = [.simple p.qualifier, .simple p.id] := by
  obtain ⟨hid, hq⟩ := Party.mk.inj p.text_attributes
  simp [Attributes.values, hid, hq]

section Headers

variable {s : Segment}

theorem InterchangeHeader.values_ofX12 (s : Segment) : (ofX12 s).value.attributes.values
    ["AuthorizationQual", "Authorization", "SecurityQual", "Security", "Date", "Time",
      "StandardsId", "Version", "Control", "AckRequest", "TestIndicator"] =
    [1, 2, 3, 4, 9, 10, 11, 12, 13, 14, 15].map fun k ↦ .simple (s.text k) := by
  refine (Attributes.values_extendNonempty_insert [_, _, _, _, _, _, _, _] _ _ [_, _] ?_).trans ?_
  · simp
  · simp [Segment.simpleText_eq]

theorem GroupHeader.values_ofX12 (hs : ∀ f ∈ s.fields, f.value.isComposite = false) :
    (ofX12 s).value.attributes.values ["GroupType", "ApplSender", "ApplReceiver", "Date", "Time",
      "Control", "StandardCode", "StandardVersion"] =
    (List.range 8).map fun k ↦ .simple (s.text (k + 1)) := by
  refine (Attributes.values_extendNonempty_insert [_, _, _, _, _] _ _ [_, _] ?_).trans ?_
  · simp
  · simp [s.component_eq_text hs, Segment.simpleText_eq, List.range_succ]

open Attributes in
theorem DocumentHeader.values_ofX12 (groupVersion : Option String)
    (hs : ∀ f ∈ s.fields, f.value.isComposite = false) :
    (ofX12 groupVersion s).value.attributes.values ["DocType", "Control", "Version"] =
      (List.range 3).map fun k ↦ .simple (s.text (k + 1)) := by
  let a := ofList [("DocType", (s.simpleText 1 .document).value),
    ("Control", (s.simpleText 2 .document).value)]
  have ha : (ofX12 groupVersion s).value.attributes =
      a.insertNonempty "Version" (s.component 3 1) := rfl
  obtain ⟨hd, hc⟩ : a.get? "DocType" = some (s.text 1) ∧ a.get? "Control" = some (s.text 2) := by
    simp only [a, Segment.simpleText_eq]
    exact get?_ofList_pair (by simp)
  have hv : (a.insertNonempty "Version" (s.component 3 1)).text "Version" = s.component 3 1 :=
    text_insertNonempty (text_ofList_of_notMem (by simp))
  rw [s.component_eq_text hs] at ha hv
  simp only [values, List.map_cons, List.map_nil, ha, hv]
  simp [Attributes.text, get?_insertNonempty_of_ne, hd, hc, List.range_succ]

end Headers

namespace Envelope

variable {tables : LoopTables} {s : Segment} {e : Envelope} {t : Transition} {role : Role}

theorem values_attributes {names : List String} (e : Envelope) (h : "Standard" ∉ names) :
    e.attributes.values names = e.header.attributes.values names := by
  refine List.map_congr_left fun name hn ↦ ?_
  rw [Attributes.text, get?_attributes fun hs ↦ h (hs ▸ hn)]
  rfl

theorem start_values {header : Segment}
    (hs : ∀ f ∈ header.fields, f.value.isComposite = false) :
    let e := (start .x12 header).next
    e.attributes.values ["AuthorizationQual", "Authorization", "SecurityQual", "Security"] ++
        e.header.sender.attributes.values ["Qual", "Id"] ++
        e.header.receiver.attributes.values ["Qual", "Id"] ++
        e.attributes.values ["Date", "Time", "StandardsId", "Version", "Control", "AckRequest",
          "TestIndicator"] =
      (List.range 15).map fun k ↦ .simple (header.text (k + 1)) := by
  intro e
  have hv := InterchangeHeader.values_ofX12 header
  have hh : e.header = (InterchangeHeader.ofX12 header).value := rfl
  have hp : e.header.sender = ⟨header.component 6 1, header.component 5 1⟩ ∧
      e.header.receiver = ⟨header.component 8 1, header.component 7 1⟩ := ⟨rfl, rfl⟩
  rw [e.values_attributes (by simp), e.values_attributes (by simp), Party.values_attributes,
    Party.values_attributes, hp.1, hp.2, hh]
  simp only [Attributes.values, List.map_cons, List.map_nil, List.cons.injEq, Value.simple.injEq,
    and_true] at hv
  simp [Attributes.values, hv, header.component_eq_text hs, List.range_succ]

theorem start_shows {header : Segment} (hn : Numbered header.fields)
    (hr : ∀ f ∈ header.fields, f.repeats = false)
    (hs : ∀ f ∈ header.fields, f.value.isComposite = false) :
    Shows (start .x12 header).announced [⟨.interchange, header.values 15⟩] := by
  intro es
  rw [header.values_eq hn hr hs, ← start_values hs]
  rfl

theorem groupOpened_shows (hx : e.standard = .x12) (hn : Numbered s.fields) (hp : s.Plain 8) :
    Shows (e.groupOpened s).announced [⟨.group, s.values 8⟩] := by
  refine shows_singleton fun es ↦ ?_
  rw [s.values_eq hn hp.unrepeated hp.simple, ← GroupHeader.values_ofX12 hp.simple, hx]
  rfl

theorem documentOpened_shows (tables : LoopTables) (hx : e.standard = .x12)
    (hn : Numbered s.fields) (hp : s.Plain 3) :
    Shows (e.documentOpened tables s).announced [⟨.document, s.values 3⟩] := by
  refine shows_singleton fun es ↦ ?_
  rw [s.values_eq hn hp.unrepeated hp.simple,
    ← DocumentHeader.values_ofX12 (e.group.bind (·.header.version)) hp.simple, hx]
  rfl

theorem Passes.shows (h : Passes tables s e (Standard.x12.role s.tag) t) (hx : e.standard = .x12)
    (hn : Numbered s.fields) (hp : s.PlainHeader) :
    Shows (t.announced ++ Emission.events t.completed) s.heading?.toList := by
  obtain ⟨hg, hd⟩ := hp
  rw [Segment.heading?]
  generalize Standard.x12.role s.tag = role at h hg hd
  cases h with
  | groupHeader => exact groupOpened_shows hx hn (hg rfl)
  | documentHeader => exact documentOpened_shows tables hx hn (hd rfl)
  | groupTrailer | interchangeTrailer => exact fun _ ↦ rfl
  | interchangeData => exact s.shows_events.append shows_nil
  | documentTrailer d =>
    have hl := shows_of_unlooped (LoopNesting.unlooped_endEvents d.loops.frames)
    have he : Shows [.elementEnd ElementName.transaction] [] := fun _ ↦ rfl
    have hc : Emission.events (e.documentClosed s d).completed =
        LoopNesting.endEvents d.loops.frames ++ [.elementEnd ElementName.transaction] := by
      simp [documentClosed, LoopNesting.closeAll, Emission.events]
    rw [hc]
    exact hl.append he
  | data d _ hr =>
    have hl := shows_of_unlooped (LoopNesting.unlooped_transition s.tag d.loops)
    rcases hr with rfl | rfl
    all_goals exact (hl.append s.shows_events).append shows_nil

end Envelope

end Edi
