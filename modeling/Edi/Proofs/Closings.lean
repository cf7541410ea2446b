import Edi.Proofs.Envelope.Placed
import Edi.Proofs.Envelope.Stated
import Edi.Proofs.Envelope.Surroundings
import Edi.Proofs.Reader.Resume
import Edi.Proofs.Reader.Run
import Edi.Proofs.Readings

namespace Edi

namespace Closing

/-- What every notice repeats of the place `x`, inside of an interchange, where an element ends. -/
structure Repeats (x : Surroundings) (interchange : Attributes) (c : Closing) : Prop where
  within : x.within? ElementName.interchange = some interchange
  standard : interchange.get? "Standard" = some c.standard.name
  control : interchange.get? "Control" = some c.interchangeControl
  parties : x.addresses.map (fun a ↦ Party.mk (a.text "Id") (a.text "Qual")) =
    [c.sender, c.receiver]
  group : (x.within? ElementName.group).map (·.get? "Control") = c.groupControl.map some

structure OfDocument (x : Surroundings) (interchange document : Attributes) (c : Closing) :
    Prop where
  innermost : x.around.head? = some (ElementName.transaction, document)
  control : ∃ control, document.get? "Control" = some control ∧ c.documentControl = some control
  documentType : ∃ type, document.get? "DocType" = some type ∧ c.documentType = some type
  version : c.version = firstNonempty (c.standard.documentVersion document ::
    ((x.within? ElementName.group).toList.map c.standard.groupVersion ++
      [c.standard.interchangeVersion interchange]))

structure OfInterchange (x : Surroundings) (interchange : Attributes) (c : Closing) : Prop where
  innermost : x.around.head? = some (ElementName.interchange, interchange)
  groupControl : c.groupControl = none
  documentControl : c.documentControl = none
  documentType : c.documentType = none
  version : c.version = firstNonempty [c.standard.interchangeVersion interchange]

/-- A notice comes right after the end of a document or an interchange, and says of it what the
events before say. -/
def AgreesWith (past : List Event) (c : Closing) : Prop :=
  ∃ before name interchange, past = before ++ [.elementEnd name] ∧
    c.Repeats (Event.surroundings before) interchange ∧
    ((name = ElementName.transaction ∧
        ∃ document, c.OfDocument (Event.surroundings before) interchange document) ∨
      (name = ElementName.interchange ∧
        c.OfInterchange (Event.surroundings before) interchange))

end Closing

namespace Emission

def Agree (past : List Event) (es : List Emission) : Prop :=
  ∀ us c vs, es = us ++ .closed c :: vs → c.AgreesWith (past ++ events us)

variable {past : List Event} {us vs : List Emission}

theorem agree_events (es : List Event) : Agree past (es.map .event) := by
  intro us c vs h
  have hm : Emission.closed c ∈ es.map .event := by simp [h]
  simp at hm

theorem agree_closed {c : Closing} (h : c.AgreesWith past) : Agree past [.closed c] := by
  intro us d vs hs
  cases us with
  | nil =>
    obtain ⟨⟨⟩, -⟩ := List.cons.inj hs
    simpa [events] using h
  | cons u us => simp at hs

theorem Agree.append (hu : Agree past us) (hv : Agree (past ++ events us) vs) :
    Agree past (us ++ vs) := by
  intro xs c ys h
  rcases List.append_eq_append_iff.1 h with ⟨zs, rfl, hzs⟩ | ⟨zs, rfl, hzs⟩
  · simpa [List.append_assoc] using hv zs c ys hzs
  · cases zs with
    | nil =>
      have h := hv [] c ys hzs.symm
      simpa [events] using h
    | cons z zs =>
      obtain ⟨rfl, -⟩ := List.cons.inj hzs
      exact hu xs c zs rfl

end Emission

namespace Envelope

variable {tables : LoopTables} {s : Segment} {e : Envelope} {t : Transition} {role : Role}
  {past : List Event} {x : Surroundings}

theorem Stated.repeats (h : e.Stated) (document : Option DocumentHeader)
    (ha : x.addresses = [e.header.sender.attributes, e.header.receiver.attributes])
    (hi : x.within? ElementName.interchange = some e.attributes)
    (hg : x.within? ElementName.group = e.group.map (·.header.attributes)) :
    (e.closing document).Repeats x e.attributes := by
  refine ⟨hi, h.standard, ?_, ?_, ?_⟩
  · exact (get?_attributes (by simp)).trans h.interchange.control
  · simp [ha, Party.text_attributes, closing]
  · rw [hg]
    cases hgr : e.group with
    | none => simp [closing, hgr]
    | some g => simp [closing, hgr, (h.group g hgr).control]

def frame : List (String × Attributes) := [(ElementName.root, .empty)]

theorem Stated.version {d : OpenDocument} (h : e.Stated) (hd : e.document = some d) :
    (e.closing (some d.header)).version =
      firstNonempty (e.standard.documentVersion d.header.attributes ::
        ((e.group.map (·.header.attributes)).toList.map e.standard.groupVersion ++
          [e.standard.interchangeVersion e.attributes])) := by
  have hv : (e.closing (some d.header)).version = d.header.version.or e.header.version := rfl
  rw [hv, (h.document d hd).version, h.interchange.version, interchangeVersion_attributes]
  cases hg : e.group with
  | none => simp
  | some g => simp [(h.group g hg).version, Option.or_assoc]

theorem documentClosed_agrees {d : OpenDocument} (h : e.Stated) (hp : e.phase ≠ .done)
    (hd : e.document = some d) (hs : Event.surroundings past = e.surroundings frame) :
    Emission.Agree past (e.documentClosed s d).completed := by
  have hx : Event.surroundings (past ++ d.loops.closeAll.1) =
      { e.surroundings frame with
        around := (ElementName.transaction, d.header.attributes) :: e.outerElements ++ frame } := by
    rw [Event.surroundings_append, hs, surroundings_closeAll hd]
  have hi : (Event.surroundings (past ++ d.loops.closeAll.1)).within? ElementName.interchange =
      some e.attributes := by
    have hn : (ElementName.interchange == ElementName.transaction) = false := by decide
    rw [hx, Surroundings.within?, List.cons_append, List.lookup_cons, hn, lookup_interchange hp]
  have hg : (Event.surroundings (past ++ d.loops.closeAll.1)).within? ElementName.group =
      e.group.map (·.header.attributes) := by
    have hn : (ElementName.group == ElementName.transaction) = false := by decide
    rw [hx, Surroundings.within?, List.cons_append, List.lookup_cons, hn, lookup_group]
    exact Option.or_none ..
  have hc : (e.closing (some d.header)).AgreesWith
      (past ++ (d.loops.closeAll.1 ++ [.elementEnd ElementName.transaction])) := by
    refine ⟨_, ElementName.transaction, e.attributes, (List.append_assoc ..).symm,
      h.repeats _ (hx ▸ rfl) hi hg, .inl ⟨rfl, d.header.attributes, ?_⟩⟩
    have hh := h.document d hd
    exact ⟨hx ▸ rfl, ⟨_, hh.control, rfl⟩, ⟨_, hh.documentType, rfl⟩, hg ▸ h.version hd⟩
  refine (Emission.agree_events _).append (Emission.agree_closed ?_)
  rwa [Emission.events_map_event]

theorem interchangeClosed_agrees (header : InterchangeHeader) (h : e.Stated)
    (hp : e.phase ≠ .done) (hd : e.document = none) (hg : e.group = none)
    (hs : Event.surroundings past = e.surroundings frame) :
    Emission.Agree past (e.interchangeClosed s header).completed := by
  have hx : Event.surroundings past =
      { e.surroundings frame with
        around := (ElementName.interchange, e.attributes) :: frame } := by
    rw [hs, Envelope.surroundings, elements_of_document_none hd]
    simp [outerElements, hg, hp]
  have hc : (e.closing none).AgreesWith (past ++ [.elementEnd ElementName.interchange]) := by
    refine ⟨_, ElementName.interchange, e.attributes, rfl, h.repeats _ (hx ▸ rfl) ?_ ?_,
      .inr ⟨rfl, ?_⟩⟩
    · rw [hx]
      rfl
    · rw [hx, hg]
      rfl
    · have hv : (e.closing none).version = e.header.version := rfl
      refine ⟨hx ▸ rfl, by simp [closing, hg], rfl, rfl, ?_⟩
      rw [hv, h.interchange.version, ← interchangeVersion_attributes, firstNonempty_cons,
        firstNonempty_nil, Option.or_none]
      rfl
  exact (Emission.agree_events [.elementEnd ElementName.interchange]).append
    (Emission.agree_closed hc)

theorem Passes.completed_agree (h : Passes tables s e role t) (he : e.Stated)
    (hp : e.phase ≠ .done) (hs : Event.surroundings past = e.surroundings frame) :
    Emission.Agree (past ++ t.announced) t.completed := by
  have hn : past ++ [] = past := List.append_nil past
  cases h with
  | groupHeader hd hg hn => exact Emission.agree_events []
  | documentHeader hd hn => exact Emission.agree_events []
  | interchangeData hd hg => exact Emission.agree_events []
  | data d _ hr hd => exact Emission.agree_events []
  | groupTrailer g hd hg => exact Emission.agree_events [_]
  | documentTrailer d hd => exact hn.symm ▸ documentClosed_agrees he hp hd hs
  | interchangeTrailer h hd hg hi => exact hn.symm ▸ interchangeClosed_agrees h he hp hd hg hs

def lastClosing (e : Envelope) : List Closing := if e.phase = .done then [e.closing none] else []

theorem Passes.completed_lastClosing (h : Passes tables s e role t) (hp : e.phase ≠ .done) :
    (Emission.closings t.completed).filter (!·.isDocument) = t.next.lastClosing := by
  cases h with
  | groupHeader hd hg hn => rfl
  | documentHeader hd hn => rfl
  | groupTrailer g hd hg => rfl
  | interchangeTrailer h hd hg hi => rfl
  | interchangeData hd hg => simp [Transition.plain, Emission.closings, lastClosing, hp]
  | data d _ hr hd => rfl
  | documentTrailer d hd =>
    simp [documentClosed, Emission.closings, lastClosing, Closing.isDocument, closing,
      Function.comp_def]

/-- The emissions `w` of an interchange that has come to `e`, after the events `past` of the
stream: each notice agrees with the events before it, and the notice of the end of the interchange
is the only one that is not of a document. -/
structure Noticed (past : List Event) (w : List Emission) (e : Envelope) : Prop where
  placed : e.Placed
  stated : e.Stated
  surroundings : Event.surroundings (past ++ Emission.events w) = e.surroundings frame
  agree : Emission.Agree past w
  last : (Emission.closings w).filter (!·.isDocument) = e.lastClosing

theorem Noticed.start (hpast : (Event.surroundings past).around = frame) (standard : Standard)
    (header : Segment) : (Envelope.start standard header).Keeps (Noticed past) [] := by
  have he : (Envelope.start standard header).next.Noticed past
      ((Envelope.start standard header).announced.map .event) := by
    refine ⟨start_placed standard header, start_stated standard header, ?_,
      Emission.agree_events _, ?_⟩
    · rw [Emission.events_map_event, Event.surroundings_append, start_surroundings, hpast]
    · rw [Emission.closings_map_event]
      rfl
  constructor
  · simp [Envelope.start]
  · exact he
  · simpa [Envelope.start] using he

theorem noticed_stable : Stable (Noticed past) := by
  intro tables s e role t w hw hp h
  have hg := h.halted_phase hp
  have hlast : e.lastClosing = [] := if_neg hp
  have hlast' : t.halted.lastClosing = [] := if_neg hg
  have hagree : Emission.Agree past (w ++ t.announced.map .event) :=
    hw.agree.append (Emission.agree_events _)
  constructor
  · exact hg
  · refine ⟨h.placed_halted hw.placed, h.stated_halted hw.stated, ?_, hagree, ?_⟩
    · rw [Emission.events_append, Emission.events_map_event, ← List.append_assoc,
        Event.surroundings_append, hw.surroundings, h.surroundings_halted hp]
    · simp [hw.last, hlast, hlast']
  · refine ⟨h.placed_next hw.placed, h.stated_next hw.stated, ?_, ?_, ?_⟩
    · rw [Emission.events_append, Emission.events_append, Emission.events_map_event,
        ← List.append_assoc, Event.surroundings_append, hw.surroundings, h.surroundings_next hp]
    · have hc := h.completed_agree hw.stated hp hw.surroundings
      rw [← List.append_assoc]
      refine hagree.append ?_
      rwa [Emission.events_append, Emission.events_map_event, ← List.append_assoc]
    · simp [hw.last, hlast, h.completed_lastClosing hp]

theorem Placed.elements_of_done (h : e.Placed) (hp : e.phase = .done) : e.elements = [] := by
  have hd : e.document = none := by
    have hn : ¬ e.document.isSome := by simp [h.document, hp]
    simpa using hn
  rw [elements_of_document_none hd]
  simp [outerElements, h.finished hp, hp]

end Envelope

namespace Reader

variable {policy : Policy} {options : Options} {earlier : List Problem} {past : List Event}
  {r : Reader}

/-- A reading whose notices agree with the events, with one notice that is not of a document if it
ends well, and that leaves nothing open then. -/
structure Noticed (past : List Event) (x : Reading Closing) : Prop where
  agree : Emission.Agree past x.emissions
  last : (Emission.closings x.emissions).filter (!·.isDocument) = x.result.toOption.toList
  around : ∀ c, x.result = .ok c →
    (Event.surroundings (past ++ Emission.events x.emissions)).around = Envelope.frame

theorem parse_noticed (policy : Policy) (earlier : List Problem) (hr : r.envelope = none)
    (hpast : (Event.surroundings past).around = Envelope.frame) :
    Noticed past (r.parse policy earlier).1 := by
  obtain ⟨-, hx, hres⟩ | ⟨e, -, hx, hres⟩ := parse_leftAt Envelope.noticed_stable policy earlier hr
    (Envelope.Noticed.start hpast r.standard)
  · refine ⟨hx ▸ Emission.agree_events [], by rw [hx, hres]; rfl, fun c hc ↦ ?_⟩
    rw [hc] at hres
    exact absurd hres (by simp [Except.toOption])
  · rw [List.nil_append] at hx
    refine ⟨hx.agree, ?_, fun c hc ↦ ?_⟩
    · rw [hx.last, hres, Envelope.lastClosing]
      split <;> rfl
    · have hp : e.phase = .done := by
        refine Decidable.byContradiction fun hp ↦ ?_
        simp [hc, hp, Except.toOption] at hres
      rw [hx.surroundings, Envelope.surroundings, hx.placed.elements_of_done hp]
      rfl

structure AllNoticed (past : List Event) (xs : List (Reading Closing × Reader)) : Prop where
  agree : Emission.Agree past (xs.flatMap (·.1.emissions))
  last : (Emission.closings (xs.flatMap (·.1.emissions))).filter (!·.isDocument) =
    xs.filterMap (·.1.result.toOption)

theorem allNoticed_nil : AllNoticed past [] := ⟨Emission.agree_events [], rfl⟩

theorem AllNoticed.cons {x : Reading Closing × Reader} {xs : List (Reading Closing × Reader)}
    (h : Noticed past x.1) (hs : AllNoticed (past ++ Emission.events x.1.emissions) xs) :
    AllNoticed past (x :: xs) := by
  refine ⟨h.agree.append hs.agree, ?_⟩
  rw [List.flatMap_cons, Emission.closings_append, List.filter_append, h.last, hs.last]
  cases hr : x.1.result <;> simp [hr, Except.toOption]

theorem readings_noticed (policy : Policy) (options : Options) (earlier : List Problem)
    (r : Reader) (hr : r.envelope = none)
    (hpast : (Event.surroundings past).around = Envelope.frame) :
    AllNoticed past (r.readings policy options earlier) := by
  induction earlier, r using readings.induct policy options generalizing past with
  | case1 earlier r one =>
    rename_i ih
    have hx : Noticed past one.1 := parse_noticed policy earlier hr hpast
    cases h : one.1.result with
    | error e =>
      rw [readings_of_error h]
      exact .cons hx allNoticed_nil
    | ok c =>
      rw [readings_of_ok h]
      refine .cons hx ?_
      split
      · next next hn => exact ih c h next hn (resume_envelope hn) (hx.around c h)
      · exact allNoticed_nil

end Reader

namespace Reading

def opening : List Event := [.documentStart, .elementStart ElementName.root .empty]

theorem framed_emissions (x : Reading (List Closing)) : ∃ ending : List Event,
    x.framed.emissions = opening.map .event ++ x.emissions ++ ending.map .event := by
  cases h : x.result with
  | ok cs => exact ⟨[.elementEnd ElementName.root, .documentEnd], framed_emissions_of_ok h⟩
  | error e => exact ⟨[], (framed_emissions_of_error h).trans (List.append_nil _).symm⟩

theorem agree_framed {x : Reading (List Closing)} (h : Emission.Agree opening x.emissions) :
    Emission.Agree [] x.framed.emissions := by
  obtain ⟨ending, he⟩ := x.framed_emissions
  rw [he]
  refine (Emission.Agree.append (Emission.agree_events _) ?_).append (Emission.agree_events _)
  rwa [Emission.events_map_event]

theorem closings_framed (x : Reading (List Closing)) :
    Emission.closings x.framed.emissions = Emission.closings x.emissions := by
  obtain ⟨ending, he⟩ := x.framed_emissions
  simp [he]

end Reading

/-- Every notice agrees with the events before it, and the notices of interchanges are what the
readings of the interchanges come to. -/
theorem closings_agree (policy : Policy) (options : Options) (source : Source) :
    let x := parseStream policy options source
    (∀ us c vs, x.emissions = us ++ .closed c :: vs → c.AgreesWith (Emission.events us)) ∧
      (Emission.closings x.emissions).filter (!·.isDocument) =
        (readings policy options source).filterMap (·.1.result.toOption) := by
  have hnil : Emission.Agree [] [] := Emission.agree_events []
  simp only [parseStream, readings]
  rcases hr : Reader.open? options source with e | _ | r
  · exact ⟨hnil, rfl⟩
  · exact ⟨Reading.agree_framed (Emission.agree_events []), rfl⟩
  · have h : Reader.AllNoticed Reading.opening (r.readings policy options []) :=
      r.readings_noticed policy options [] (Reader.resume_envelope hr) rfl
    have he := r.parseAll_emissions policy options []
    refine ⟨Reading.agree_framed (he ▸ h.agree), ?_⟩
    rw [Reading.closings_framed, he]
    exact h.last

/-- A document that states no version has that of its group. -/
theorem closings_agree_in_group :
    let text := "UNB+UNOC:3+A:14+B+240101:1200+1'UNG+ORDERS+S+R+240101:1200+7+UN+D:96A'" ++
      "UNH+1+ORDERS'BGM'UNT+3+1'UNE+1+7'UNZ+1+1'"
    let x := parseStream .strict {} (.text text.toList)
    ∃ us c vs, x.emissions = us ++ .closed c :: vs ∧ c.AgreesWith (Emission.events us) ∧
      c.documentControl = some "1" ∧ c.groupControl = some "7" ∧ c.version = some "D96A" := by
  intro text x
  let c : Closing :=
    { standard := .edifact
      sender := ⟨"A", "14"⟩
      receiver := ⟨"B", ""⟩
      interchangeControl := "1"
      groupControl := some "7"
      documentControl := some "1"
      documentType := some "ORDERS"
      version := some "D96A"
      timestamp := some ⟨2024, 1, 1, 12, 0, 0⟩ }
  have hx : x.emissions = x.emissions.take 16 ++ .closed c :: x.emissions.drop 17 := by
    decide +kernel
  exact ⟨_, c, _, hx, (closings_agree .strict {} (.text text.toList)).1 _ c _ hx, rfl, rfl, rfl⟩

end Edi
