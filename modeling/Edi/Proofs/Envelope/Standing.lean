import Edi.Envelope.Step

namespace Edi

namespace Envelope

variable {tables : LoopTables} {s : Segment} {e : Envelope} {t : Transition}

/-- A segment of a given role that may stand where it does, and what it brings about. -/
inductive Passes (tables : LoopTables) (s : Segment) (e : Envelope) : Role → Transition → Prop
  | groupHeader (hd : e.document = none) (hg : e.group = none) (hn : e.grouping ≠ .ungrouped) :
      Passes tables s e .groupHeader (e.groupOpened s)
  | groupTrailer (g : OpenGroup) (hd : e.document = none) (hg : e.group = some g) :
      Passes tables s e .groupTrailer (e.groupClosed s g)
  | documentHeader (hd : e.document = none)
      (hn : e.group = none → e.standard.requiresGroups = false ∧ e.grouping ≠ .grouped) :
      Passes tables s e .documentHeader (e.documentOpened tables s)
  | documentTrailer (d : OpenDocument) (hd : e.document = some d) :
      Passes tables s e .documentTrailer (e.documentClosed s d)
  | interchangeTrailer (h : InterchangeHeader) (hd : e.document = none) (hg : e.group = none)
      (hi : e.pending = some h) :
      Passes tables s e .interchangeTrailer (e.interchangeClosed s h)
  | interchangeData (hd : e.document = none) (hg : e.group = none) :
      Passes tables s e .interchangeData (.plain s.events e)
  | data (d : OpenDocument) (role : Role) (hr : role = .data ∨ role = .interchangeData)
      (hd : e.document = some d) : Passes tables s e role (e.dataMet s d)

theorem documentObstacle?_eq_none : e.documentObstacle? = none ↔ e.document = none ∧
    (e.group = none → e.standard.requiresGroups = false ∧ e.grouping ≠ .grouped) := by
  cases hd : e.document <;> cases hg : e.group <;> simp [documentObstacle?, hd, hg]
  split
  · next h => simp [h]
  · next h => simp [h]

theorem step_eq_ok (h : e.step tables s = .ok t) :
    Passes tables s e (e.standard.role s.tag) t := by
  cases hr : e.standard.role s.tag <;> simp only [step, hr] at h
  case interchangeHeader => simp at h
  case interchangeTrailer =>
    cases hd : e.document <;> cases hg : e.group <;> cases hi : e.pending <;>
      simp only [closeInterchange, hd, hg, hi, Option.isSome_some, Option.isSome_none,
        Bool.false_eq_true, ↓reduceIte, reduceCtorEq, Except.ok.injEq] at h
    exact h ▸ .interchangeTrailer _ hd hg hi
  case groupHeader =>
    cases hd : e.document <;> cases hg : e.group <;>
      simp only [openGroup, hd, hg, Option.isSome_some, Option.isSome_none,
        Bool.false_eq_true, ↓reduceIte, reduceCtorEq] at h
    split at h
    · simp at h
    · next hn => exact Except.ok.inj h ▸ .groupHeader hd hg hn
  case groupTrailer =>
    cases hd : e.document <;> cases hg : e.group <;>
      simp only [closeGroup, hd, hg, Option.isSome_some, Option.isSome_none,
        Bool.false_eq_true, ↓reduceIte, reduceCtorEq, Except.ok.injEq] at h
    exact h ▸ .groupTrailer _ hd hg
  case documentHeader =>
    simp only [openDocument] at h
    split at h
    · simp at h
    · next ho =>
      obtain ⟨hd, hn⟩ := documentObstacle?_eq_none.1 ho
      exact Except.ok.inj h ▸ .documentHeader hd hn
  case documentTrailer =>
    cases hd : e.document <;> simp only [closeDocument, hd, reduceCtorEq, Except.ok.injEq] at h
    exact h ▸ .documentTrailer _ hd
  case interchangeData =>
    cases hd : e.document <;> cases hg : e.group <;>
      simp only [data, hd, hg, Option.isSome_some, Option.isSome_none, Bool.false_eq_true,
        ↓reduceIte, reduceCtorEq, Except.ok.injEq] at h
    · exact h ▸ .interchangeData hd hg
    · exact h ▸ .data _ _ (.inr rfl) hd
    · exact h ▸ .data _ _ (.inr rfl) hd
  case data =>
    cases hd : e.document <;> simp only [data, hd, reduceCtorEq, Except.ok.injEq] at h
    exact h ▸ .data _ _ (.inl rfl) hd

theorem Passes.step (h : Passes tables s e (e.standard.role s.tag) t) :
    e.step tables s = .ok t := by
  generalize hr : e.standard.role s.tag = role at h
  cases h with
  | groupHeader hd hg hn => simp [Envelope.step, hr, openGroup, hd, hg, hn]
  | groupTrailer g hd hg => simp [Envelope.step, hr, closeGroup, hd, hg]
  | documentHeader hd hn =>
    simp [Envelope.step, hr, openDocument, documentObstacle?_eq_none.2 ⟨hd, hn⟩]
  | documentTrailer d hd => simp [Envelope.step, hr, closeDocument, hd]
  | interchangeTrailer h hd hg hi => simp [Envelope.step, hr, closeInterchange, hd, hg, hi]
  | interchangeData hd hg => simp [Envelope.step, hr, hd, hg]
  | data d _ h hd => rcases h with rfl | rfl <;> simp [Envelope.step, hr, Envelope.data, hd]

/-- As long as the header is there for the trailer to take, a segment is turned away only because
of where it stands. -/
theorem step_eq_error {header : InterchangeHeader} (hi : e.pending = some header)
    {err : Error} (h : e.step tables s = .error err) : ∃ place, err = s.outOfPlace place := by
  cases hr : e.standard.role s.tag <;>
    simp only [step, hr, closeInterchange, hi, openGroup, closeGroup, openDocument,
      closeDocument, data] at h
  all_goals
    repeat' split at h
    all_goals simp only [reduceCtorEq, Except.error.injEq] at h
    all_goals exact ⟨_, h.symm⟩

/-- The pieces of an envelope agree: documents stand in groups or outside of them as it says. -/
structure Coherent (e : Envelope) : Prop where
  document : e.document.isSome →
    e.grouping = if e.group.isSome then .grouped else .ungrouped
  group : e.group.isSome → e.grouping ≠ .ungrouped
  required : e.standard.requiresGroups → e.grouping ≠ .ungrouped

/-- Between two segments the header is there as long as the trailer has not come. -/
structure Settled (e : Envelope) : Prop extends Coherent e where
  pending : e.phase ≠ .done → e.pending = some e.header

end Envelope

/-- Where an interchange stands between two segments, as far as their order goes. -/
inductive Standing
  | outside (grouping : Grouping)
  /-- In a group; `filled` if a document has stood in a group before. -/
  | group (filled : Bool)
  | document (grouped : Bool)
  | finished
  deriving DecidableEq, Repr

namespace Standing

def next (standard : Standard) : Standing → Role → Option Standing
  | outside .undecided, .groupHeader => some (group false)
  | outside .grouped, .groupHeader => some (group true)
  | outside grouping, .documentHeader =>
    if standard.requiresGroups ∨ grouping = .grouped then none else some (document false)
  | outside grouping, .interchangeData => some (outside grouping)
  | outside _, .interchangeTrailer => some finished
  | group _, .documentHeader => some (document true)
  | group filled, .groupTrailer => some (outside (if filled then .grouped else .undecided))
  | document grouped, .data | document grouped, .interchangeData => some (document grouped)
  | document true, .documentTrailer => some (group true)
  | document false, .documentTrailer => some (outside .ungrouped)
  | _, _ => none

end Standing

namespace Envelope

variable {tables : LoopTables} {s : Segment} {e : Envelope} {t : Transition}

def standing (e : Envelope) : Standing :=
  if e.phase = .done then .finished
  else match e.document, e.group with
    | some _, g => .document g.isSome
    | none, some _ => .group (e.grouping = .grouped)
    | none, none => .outside e.grouping

theorem standing_eq_finished (hp : e.phase = .done) : e.standing = .finished := by
  simp [standing, hp]

theorem standing_ne_finished (hp : e.phase ≠ .done) : e.standing ≠ .finished := by
  simp only [standing, hp, ↓reduceIte]
  split <;> simp

theorem standing_eq_document {d : OpenDocument} (hp : e.phase ≠ .done)
    (hd : e.document = some d) : e.standing = .document e.group.isSome := by
  simp [standing, hp, hd]

theorem standing_eq_group {g : OpenGroup} (hp : e.phase ≠ .done) (hd : e.document = none)
    (hg : e.group = some g) : e.standing = .group (e.grouping = .grouped) := by
  simp [standing, hp, hd, hg]

theorem standing_eq_outside (hp : e.phase ≠ .done) (hd : e.document = none)
    (hg : e.group = none) : e.standing = .outside e.grouping := by
  simp [standing, hp, hd, hg]

theorem Passes.standing_next {role : Role} (hc : e.Coherent) (hp : e.phase ≠ .done)
    (h : Passes tables s e role t) :
    e.standing.next e.standard role = some t.next.standing := by
  cases h with
  | groupHeader hd hg hn =>
    rw [standing_eq_outside hp hd hg]
    cases hgr : e.grouping <;> simp_all [standing, groupOpened, Standing.next]
  | groupTrailer g hd hg =>
    rw [standing_eq_group hp hd hg]
    have hn := hc.group (by simp [hg])
    cases hgr : e.grouping <;> simp_all [standing, groupClosed, Standing.next]
  | documentHeader hd hn =>
    cases hg : e.group with
    | none =>
      rw [standing_eq_outside hp hd hg]
      obtain ⟨hr, hu⟩ := hn hg
      simp [standing, documentOpened, Standing.next, hg, hr, hu]
    | some g =>
      rw [standing_eq_group hp hd hg]
      simp [standing, documentOpened, Standing.next, hg]
  | documentTrailer d hd =>
    rw [standing_eq_document hp hd]
    have hgr := hc.document (by simp [hd])
    cases hg : e.group <;> simp_all [standing, documentClosed, Standing.next]
  | interchangeTrailer h hd hg hi =>
    rw [standing_eq_outside hp hd hg]
    simp [standing, interchangeClosed, Standing.next]
  | interchangeData hd hg =>
    rw [standing_eq_outside hp hd hg]
    simp [standing, Transition.plain, Standing.next, hp, hd, hg]
  | data d _ hr hd =>
    rw [standing_eq_document hp hd]
    rcases hr with rfl | rfl <;>
      simp [standing, dataMet, Transition.plain, Standing.next]

theorem exists_passes (tables : LoopTables) (s : Segment) {role : Role} {q : Standing}
    (hp : e.phase ≠ .done) {header : InterchangeHeader} (hi : e.pending = some header)
    (h : e.standing.next e.standard role = some q) : ∃ t, Passes tables s e role t := by
  cases hd : e.document with
  | some d =>
    rw [standing_eq_document hp hd] at h
    cases role
    case documentTrailer => exact ⟨_, .documentTrailer d hd⟩
    case interchangeData => exact ⟨_, .data d _ (.inr rfl) hd⟩
    case data => exact ⟨_, .data d _ (.inl rfl) hd⟩
    all_goals simp [Standing.next] at h
  | none =>
    cases hg : e.group with
    | some g =>
      rw [standing_eq_group hp hd hg] at h
      cases role
      case documentHeader => exact ⟨_, .documentHeader hd (by simp [hg])⟩
      case groupTrailer => exact ⟨_, .groupTrailer g hd hg⟩
      all_goals simp [Standing.next] at h
    | none =>
      rw [standing_eq_outside hp hd hg] at h
      cases role
      case groupHeader =>
        refine ⟨_, .groupHeader hd hg fun hn ↦ ?_⟩
        simp [hn, Standing.next] at h
      case documentHeader =>
        have hn : (e.standard.requiresGroups = false ∧ e.grouping ≠ .grouped) ∧
            Standing.document false = q := by simpa [Standing.next] using h
        exact ⟨_, .documentHeader hd fun _ ↦ hn.1⟩
      case interchangeData => exact ⟨_, .interchangeData hd hg⟩
      case interchangeTrailer => exact ⟨_, .interchangeTrailer header hd hg hi⟩
      all_goals simp [Standing.next] at h

theorem Passes.coherent {role : Role} (hc : e.Coherent) (h : Passes tables s e role t) :
    t.next.Coherent := by
  cases h with
  | groupHeader hd hg hn => exact ⟨by simp [groupOpened, hd], fun _ ↦ hn, hc.required⟩
  | groupTrailer g hd hg =>
    exact ⟨by simp [groupClosed, hd], by simp [groupClosed], hc.required⟩
  | documentHeader hd hn =>
    cases hg : e.group <;> constructor <;> simp_all [documentOpened]
  | documentTrailer d hd => exact ⟨by simp [documentClosed], hc.group, hc.required⟩
  | interchangeTrailer h hd hg hi => exact ⟨hc.document, hc.group, hc.required⟩
  | interchangeData hd hg => exact hc
  | data d _ hr hd => exact ⟨fun _ ↦ hc.document (by simp [hd]), hc.group, hc.required⟩

@[simp] theorem Passes.standard {role : Role} (h : Passes tables s e role t) :
    t.next.standard = e.standard := by
  cases h <;> rfl

theorem Passes.settled {role : Role} (hs : e.Settled) (hp : e.phase ≠ .done)
    (h : Passes tables s e role t) : t.next.Settled := by
  refine ⟨h.coherent hs.toCoherent, fun hn ↦ ?_⟩
  have hi := hs.pending hp
  cases h with
  | interchangeTrailer => exact absurd rfl hn
  | groupHeader | groupTrailer | documentHeader | documentTrailer | interchangeData | data =>
    exact hi

theorem start_settled (standard : Standard) (header : Segment) :
    (Envelope.start standard header).next.Settled := by
  refine ⟨?_, fun _ ↦ rfl⟩
  constructor <;> simp [Envelope.start]

end Envelope

end Edi
