import Edi.Proofs.Envelope.InPlace
import Edi.Proofs.Validation.Expected

namespace Edi

variable {standard : Standard} {s header : Segment} {past : List Segment} {level : Level}

theorem Segment.simpleText_eq (s : Segment) (position : Nat) (level : Level) :
    s.simpleText position level = ⟨s.text position, s.compositeProblems level position⟩ := by
  simp only [simpleText, text, compositeProblems]
  cases s.element? position with
  | none => rfl
  | some v => cases v <;> rfl

theorem Checked.require_eq (holds : Bool) (p : Problem) :
    Checked.require holds p = ⟨(), if holds then [] else [p]⟩ := rfl

theorem Segment.checkTrailer_problems (s : Segment) (level : Level) (standard : Standard)
    (count : Nat) (control : String) :
    (s.checkTrailer level standard.trailersCarryControl count control).problems =
      s.trailerProblems standard level count control := by
  cases standard <;>
    simp [checkTrailer, simpleText_eq, trailerProblems, countProblems, controlProblems,
      Standard.trailersCarryControl, Checked.require_eq, bind, pure]

theorem GroupHeader.ofSegment_problems (standard : Standard) (s : Segment) :
    (ofSegment standard s).problems = s.headerProblems standard .group := by
  cases standard <;>
    simp [ofSegment, ofX12, ofEdifact, ofTradacoms, Segment.simpleText_eq, bind, pure,
      Segment.headerProblems, Standard.simplePositions, Standard.controlPosition]

theorem GroupHeader.ofSegment_control (standard : Standard) (s : Segment) :
    (ofSegment standard s).value.control = s.text (standard.controlPosition .group) := by
  cases standard <;>
    simp [ofSegment, ofX12, ofEdifact, ofTradacoms, Segment.simpleText_eq, bind, pure,
      Standard.controlPosition]

theorem DocumentHeader.ofSegment_problems (standard : Standard) (v : Option String)
    (s : Segment) : (ofSegment standard v s).problems = s.headerProblems standard .document := by
  cases standard <;>
    simp [ofSegment, ofX12, ofEdifact, ofTradacoms, Segment.simpleText_eq, bind, pure,
      Segment.headerProblems, Standard.simplePositions, Standard.controlPosition]

theorem DocumentHeader.ofSegment_control (standard : Standard) (v : Option String)
    (s : Segment) :
    (ofSegment standard v s).value.control = s.text (standard.controlPosition .document) := by
  cases standard <;>
    simp [ofSegment, ofX12, ofEdifact, ofTradacoms, Segment.simpleText_eq, bind, pure,
      Standard.controlPosition]

theorem InterchangeHeader.ofSegment_problems
    (hs : standard = .x12 → s.compositeProblems .interchange 13 = []) :
    (ofSegment standard s).problems =
      s.headerProblems standard .interchange ++ s.lengthProblems standard := by
  have hx : Nat.repr 9 ++ " characters in ISA13" = "9 characters in ISA13" := by decide
  have he : "at most " ++ Nat.repr 14 ++ " characters in UNB05" =
      "at most 14 characters in UNB05" := by decide
  cases standard <;>
    simp_all [ofSegment, ofX12, ofEdifact, ofTradacoms, Segment.simpleText_eq, bind, pure,
      Checked.require_eq, Segment.headerProblems, Segment.lengthProblems, Segment.problem,
      Standard.simplePositions, Standard.controlPosition, controlLength, maxControlLength]
  all_goals congr

theorem InterchangeHeader.ofSegment_control (standard : Standard) (s : Segment) :
    (ofSegment standard s).value.control = s.text (standard.controlPosition .interchange) := by
  cases standard <;>
    simp [ofSegment, ofX12, ofEdifact, ofTradacoms, Segment.simpleText_eq, bind, pure,
      Standard.controlPosition]

namespace Standard

theorem isHeader_iff : standard.isHeader level s = true ↔
    standard.role s.tag = level.headerRole := by
  simp [isHeader]

theorem isHeader_eq_false {role : Role} (hr : standard.role s.tag = role)
    (h : role ≠ level.headerRole) : standard.isHeader level s = false := by
  simpa [isHeader, hr] using h

theorem trueCount_document_cons : standard.trueCount (s :: past) .document =
    if standard.isHeader .document s then 2 else standard.trueCount past .document + 1 := by
  cases h : standard.isHeader .document s <;> simp [trueCount, h]

theorem trueCount_group_cons : standard.trueCount (s :: past) .group =
    if standard.isHeader .group s then 0
    else standard.trueCount past .group + if standard.isHeader .document s then 1 else 0 := by
  cases h : standard.isHeader .group s <;> simp [trueCount, h, List.countP_cons]

theorem trueControl_cons (hl : level ≠ .interchange) :
    standard.trueControl header (s :: past) level =
      if standard.isHeader level s then s.text (standard.controlPosition level)
      else standard.trueControl header past level := by
  cases h : standard.isHeader level s <;> simp [trueControl, hl, h]

end Standard

namespace Envelope

/-- The counters and headers of an envelope tell of the segments that were met. -/
structure Tracks (standard : Standard) (header : Segment) (past : List Segment) (e : Envelope) :
    Prop where
  standard_eq : e.standard = standard
  control : e.header.control = header.text (standard.controlPosition .interchange)
  groups : e.groups = past.countP (standard.isHeader .group)
  documents : e.documents = past.countP (standard.isHeader .document)
  group : ∀ g, e.group = some g → g.documents = standard.trueCount past .group ∧
    g.header.control = standard.trueControl header past .group
  document : ∀ d, e.document = some d → d.segments + 1 = standard.trueCount past .document ∧
    d.header.control = standard.trueControl header past .document

variable {tables : LoopTables} {e : Envelope} {t : Transition}

theorem Tracks.interchangeCount (h : Tracks standard header past e) :
    e.standard.interchangeCount e.groups e.documents = standard.trueCount past .interchange := by
  rw [h.standard_eq, h.groups, h.documents]
  simp only [Standard.interchangeCount, Standard.trueCount]
  by_cases ht : standard = .tradacoms
  · simp [ht]
  · by_cases hg : past.countP (standard.isHeader .group) = 0
    · simp [hg]
    · simp [ht, hg, Nat.pos_of_ne_zero hg]

theorem start_tracks (standard : Standard) (header : Segment) :
    Tracks standard header [] (start standard header).next := by
  constructor
  · rfl
  · exact InterchangeHeader.ofSegment_control standard header
  · rfl
  · rfl
  · intro g hg
    simp [start] at hg
  · intro d hd
    simp [start] at hd

theorem Passes.problems_eq {role : Role} (h : Passes tables s e role t)
    (hr : e.standard.role s.tag = role) (ht : Tracks standard header past e)
    (hi : e.pending = some e.header) :
    t.problems = Interchange.problemsOf standard header past s := by
  obtain rfl := ht.standard_eq
  simp only [Interchange.problemsOf, hr]
  cases h with
  | groupHeader hd hg hn => exact GroupHeader.ofSegment_problems _ _
  | documentHeader hd hn => exact DocumentHeader.ofSegment_problems _ _ _
  | groupTrailer g hd hg =>
    obtain ⟨hc, hl⟩ := ht.group g hg
    simp only [groupClosed, Segment.checkTrailer_problems, hc, hl]
  | documentTrailer d hd =>
    obtain ⟨hc, hl⟩ := ht.document d hd
    simp only [documentClosed, Segment.checkTrailer_problems, hc, hl]
  | interchangeTrailer h hd hg hh =>
    obtain rfl := Option.some.inj (hi.symm.trans hh)
    simp only [interchangeClosed, Segment.checkTrailer_problems, ht.interchangeCount, ht.control]
    rfl
  | interchangeData hd hg => rfl
  | data d _ hr hd => rcases hr with rfl | rfl <;> rfl

theorem Tracks.cons {e' : Envelope} (ht : Tracks standard header past e)
    (hgh : standard.isHeader .group s = false) (hdh : standard.isHeader .document s = false)
    (hs : e'.standard = e.standard) (hh : e'.header = e.header) (hg : e'.groups = e.groups)
    (hd : e'.documents = e.documents) (hgr : ∀ g, e'.group = some g → e.group = some g)
    (hdoc : ∀ d', e'.document = some d' → ∃ d, e.document = some d ∧
      d'.segments = d.segments + 1 ∧ d'.header = d.header) :
    Tracks standard header (s :: past) e' := by
  constructor
  · rw [hs, ht.standard_eq]
  · rw [hh, ht.control]
  · rw [hg, ht.groups, List.countP_cons_of_neg (by simp [hgh])]
  · rw [hd, ht.documents, List.countP_cons_of_neg (by simp [hdh])]
  · intro g hg'
    obtain ⟨hc, hl⟩ := ht.group g (hgr g hg')
    simp [Standard.trueCount_group_cons, Standard.trueControl_cons, hgh, hdh, hc, hl]
  · intro d' hd'
    obtain ⟨d, hd, hds, hdh'⟩ := hdoc d' hd'
    obtain ⟨hc, hl⟩ := ht.document d hd
    simp [Standard.trueCount_document_cons, Standard.trueControl_cons, hdh, hds, hdh', hc, hl]

theorem Passes.tracks {role : Role} (h : Passes tables s e role t)
    (hr : e.standard.role s.tag = role) (ht : Tracks standard header past e) :
    Tracks standard header (s :: past) t.next := by
  obtain rfl := ht.standard_eq
  have hh (level : Level) (hn : role ≠ level.headerRole) :
      e.standard.isHeader level s = false := Standard.isHeader_eq_false hr hn
  have hp (level : Level) (hn : role = level.headerRole) :
      e.standard.isHeader level s = true := Standard.isHeader_iff.2 (hr.trans hn)
  cases h with
  | groupHeader hd hg hn =>
    have hgh := hp .group rfl
    have hdh := hh .document (by decide)
    constructor
    · rfl
    · exact ht.control
    · simp [groupOpened, ht.groups, hgh]
    · simp [groupOpened, ht.documents, hdh]
    · intro g hg
      obtain rfl := Option.some.inj hg
      simp [Standard.trueCount_group_cons, Standard.trueControl_cons, hgh,
        GroupHeader.ofSegment_control]
    · intro d hd'
      simp [groupOpened, hd] at hd'
  | documentHeader hd hn =>
    have hgh := hh .group (by decide)
    have hdh := hp .document rfl
    constructor
    · rfl
    · exact ht.control
    · simp [documentOpened, ht.groups, hgh]
    · simp [documentOpened, ht.documents, hdh]
    · intro g' hg'
      obtain ⟨g, hg, rfl⟩ := Option.map_eq_some_iff.1 hg'
      obtain ⟨hc, hl⟩ := ht.group g hg
      simp [Standard.trueCount_group_cons, Standard.trueControl_cons, hgh, hdh, hc, hl]
    · intro d hd'
      obtain rfl := Option.some.inj hd'
      simp [Standard.trueCount_document_cons, Standard.trueControl_cons, hdh,
        DocumentHeader.ofSegment_control]
  | groupTrailer g hd hg =>
    refine ht.cons (hh .group (by decide)) (hh .document (by decide)) rfl rfl rfl rfl ?_ ?_
    · intro g' hg'
      simp [groupClosed] at hg'
    · intro d hd'
      simp [groupClosed, hd] at hd'
  | documentTrailer d hd =>
    refine ht.cons (hh .group (by decide)) (hh .document (by decide)) rfl rfl rfl rfl
      (fun g hg ↦ hg) ?_
    intro d' hd'
    simp [documentClosed] at hd'
  | interchangeTrailer h hd hg hi =>
    refine ht.cons (hh .group (by decide)) (hh .document (by decide)) rfl rfl rfl rfl
      (fun g hg ↦ hg) ?_
    intro d' hd'
    simp [interchangeClosed, hd] at hd'
  | interchangeData hd hg =>
    refine ht.cons (hh .group (by decide)) (hh .document (by decide)) rfl rfl rfl rfl
      (fun g hg ↦ hg) ?_
    intro d' hd'
    simp [Transition.plain, hd] at hd'
  | data d _ hr hd =>
    have hg : e.standard.isHeader .group s = false :=
      hh .group (by rcases hr with rfl | rfl <;> decide)
    have hd' : e.standard.isHeader .document s = false :=
      hh .document (by rcases hr with rfl | rfl <;> decide)
    refine ht.cons hg hd' rfl rfl rfl rfl (fun g hg ↦ hg) ?_
    intro d' hd'
    obtain rfl := Option.some.inj hd'
    exact ⟨d, hd, rfl, rfl⟩

end Envelope

end Edi
