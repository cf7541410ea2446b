import Edi.Proofs.Attributes
import Edi.Proofs.Envelope.Language
import Edi.Proofs.Event.Words

namespace Edi

open scoped Computability
open EventGrammar Envelope

namespace EventGrammar

def outside (standard : Standard) (grouping : Grouping) : Language Emission :=
  if standard.requiresGroups then (segment (· = "TA1") + group)∗
  else match grouping with
    | .undecided => emptyGroup∗
    | .grouped => group∗
    | .ungrouped => emptyGroup∗ * transaction∗

def inGroup (standard : Standard) (grouping : Grouping) : Language Emission :=
  {w | ∃ u a v, u ∈ outside standard grouping ∧ v ∈ transaction∗ ∧
    (grouping = .undecided → v = []) ∧ w = u ++ .event (.elementStart ElementName.group a) :: v}

variable {standard : Standard} {grouping : Grouping} {u v w : List Emission}

theorem nil_mem_outside : [] ∈ outside standard grouping := by
  have ho : ([] : List Emission) ∈ emptyGroup∗ * transaction∗ :=
    Language.append_mem_mul (Language.nil_mem_kstar _) (Language.nil_mem_kstar _)
  unfold outside
  split
  · exact Language.nil_mem_kstar _
  · cases grouping with
    | undecided => exact Language.nil_mem_kstar _
    | grouped => exact Language.nil_mem_kstar _
    | ungrouped => exact ho

theorem emptyGroup_le_group : emptyGroup ≤ group := by
  intro w hm
  obtain ⟨a, u, ha, rfl, rfl⟩ := hm
  exact ⟨a, [], ha, Language.nil_mem_kstar _, rfl⟩

theorem outside_undecided_le_grouped :
    outside standard .undecided ≤ outside standard .grouped := by
  simp only [outside]
  split
  · exact le_rfl
  · exact kstar_mono emptyGroup_le_group

theorem outside_undecided_le_ungrouped :
    outside standard .undecided ≤ outside standard .ungrouped := by
  simp only [outside]
  split
  · exact le_rfl
  · intro w hw
    exact ⟨w, hw, [], Language.nil_mem_kstar _, List.append_nil w⟩

theorem outside_le_ungrouped (hg : grouping ≠ .grouped) :
    outside standard grouping ≤ outside standard .ungrouped := by
  cases grouping with
  | undecided => exact outside_undecided_le_ungrouped
  | grouped => contradiction
  | ungrouped => exact le_rfl

theorem inGroup_le_grouped (hg : grouping ≠ .ungrouped) :
    inGroup standard grouping ≤ inGroup standard .grouped := by
  intro w hm
  obtain ⟨u, a, v, hu, hv, -, rfl⟩ := hm
  refine ⟨u, a, v, ?_, hv, by simp, rfl⟩
  cases grouping with
  | undecided => exact outside_undecided_le_grouped hu
  | grouped => exact hu
  | ungrouped => contradiction

theorem outside_le_content : outside standard grouping ≤ content standard := by
  simp only [outside, content]
  split
  · exact le_rfl
  · cases grouping with
    | undecided =>
      exact fun w hw ↦ .inl (kstar_mono emptyGroup_le_group hw)
    | grouped => exact le_sup_left
    | ungrouped => exact le_sup_right

theorem append_group_mem_outside (hg : grouping ≠ .ungrouped) {a : Attributes}
    (hu : u ∈ outside standard grouping) (hv : v ∈ transaction∗)
    (hn : grouping = .undecided → v = []) :
    u ++ (.event (.elementStart ElementName.group a) :: v ++
      [.event (.elementEnd ElementName.group)]) ∈ outside standard grouping := by
  have hw : .event (.elementStart ElementName.group a) :: v ++
      [.event (.elementEnd ElementName.group)] ∈ group := ⟨a, v, trivial, hv, rfl⟩
  cases hr : standard.requiresGroups <;> simp only [outside, hr] at hu ⊢
  · cases grouping with
    | undecided => exact kstar_append_mem hu ⟨a, v, trivial, hn rfl, rfl⟩
    | grouped => exact kstar_append_mem hu hw
    | ungrouped => contradiction
  · exact kstar_append_mem hu (.inr hw)

theorem append_transaction_mem_outside (hr : standard.requiresGroups = false)
    (hu : u ∈ outside standard .ungrouped) (hw : w ∈ transaction) :
    u ++ w ∈ outside standard .ungrouped := by
  simp only [outside, hr] at hu ⊢
  obtain ⟨x, hx, y, hy, rfl⟩ := hu
  rw [List.append_assoc]
  exact Language.append_mem_mul hx (kstar_append_mem hy hw)

theorem append_segment_mem_outside (hr : standard.requiresGroups = true)
    (hu : u ∈ outside standard grouping) (hw : w ∈ segment (· = "TA1")) :
    u ++ w ∈ outside standard grouping := by
  simp only [outside, hr, if_true] at hu ⊢
  exact kstar_append_mem hu (.inl hw)

end EventGrammar

namespace Envelope

/-- What an interchange holds so far, without the transaction at hand. -/
def heldBefore (e : Envelope) : Language Emission :=
  if e.group.isSome then inGroup e.standard e.grouping else outside e.standard e.grouping

def held (e : Envelope) : Language Emission :=
  match e.document with
  | none => e.heldBefore
  | some d =>
    {w | ∃ u a v, u ∈ e.heldBefore ∧ OpenBody d.loops.openCount v ∧
      w = u ++ .event (.elementStart ElementName.transaction a) :: v}

variable {tables : LoopTables} {s : Segment} {e : Envelope} {t : Transition} {w : List Emission}

theorem held_of_document_none (hd : e.document = none) : e.held = e.heldBefore := by
  simp [held, hd]

theorem heldBefore_of_group_none (hg : e.group = none) :
    e.heldBefore = outside e.standard e.grouping := by
  simp [heldBefore, hg]

theorem heldBefore_of_group {g : OpenGroup} (hg : e.group = some g) :
    e.heldBefore = inGroup e.standard e.grouping := by
  simp [heldBefore, hg]

theorem Coherent.append_transaction (hc : e.Coherent) (hd : e.document.isSome)
    {u v : List Emission} (hu : u ∈ e.heldBefore) (hv : v ∈ transaction) :
    u ++ v ∈ e.heldBefore := by
  have hgr := hc.document hd
  cases hg : e.group with
  | none =>
    have hun : e.grouping = .ungrouped := by simpa [hg] using hgr
    have hr : e.standard.requiresGroups = false := by
      simpa using fun h ↦ hc.required h hun
    rw [heldBefore_of_group_none hg, hun] at hu ⊢
    exact append_transaction_mem_outside hr hu hv
  | some g =>
    have hgd : e.grouping = .grouped := by simpa [hg] using hgr
    rw [heldBefore_of_group hg, hgd] at hu ⊢
    obtain ⟨x, a, y, hx, hy, -, rfl⟩ := hu
    exact ⟨x, a, y ++ v, hx, kstar_append_mem hy hv, by simp, by simp⟩

theorem Coherent.close_document (hc : e.Coherent) {d : OpenDocument} (hd : e.document = some d)
    (hw : w ∈ e.held) (c : Closing) :
    w ++ ((d.loops.closeAll.1 ++ [Event.elementEnd ElementName.transaction]).map .event ++
      [.closed c]) ∈ e.heldBefore := by
  simp only [held, hd] at hw
  obtain ⟨u, a, v, hu, hv, rfl⟩ := hw
  have ht : .event (.elementStart ElementName.transaction a) ::
      ((v ++ d.loops.closeAll.1.map .event) ++ [.event (.elementEnd ElementName.transaction)]) ++
        [.closed c] ∈ transaction :=
    Language.append_mem_mul ⟨a, _, trivial, LoopNesting.body_closeAll hv, rfl⟩ ⟨c, rfl⟩
  simpa using hc.append_transaction (by simp [hd]) hu ht

theorem Coherent.close_group (hc : e.Coherent) {g : OpenGroup} (hg : e.group = some g)
    (hw : w ∈ e.heldBefore) :
    w ++ [.event (.elementEnd ElementName.group)] ∈ outside e.standard e.grouping := by
  rw [heldBefore_of_group hg] at hw
  obtain ⟨u, a, v, hu, hv, hn, rfl⟩ := hw
  simpa using append_group_mem_outside (hc.group (by simp [hg])) hu hv hn

/-- What is open can be closed at any time. -/
theorem Coherent.held_begins (hc : e.Coherent) (hw : w ∈ e.held) :
    Begins (content e.standard) w := by
  have hb {w : List Emission} (hw : w ∈ e.heldBefore) : Begins (content e.standard) w := by
    cases hg : e.group with
    | none =>
      rw [heldBefore_of_group_none hg] at hw
      exact .of_mem (outside_le_content hw)
    | some g => exact ⟨_, outside_le_content (hc.close_group hg hw)⟩
  cases hd : e.document with
  | none => exact hb (held_of_document_none hd ▸ hw)
  | some d => exact (hb (hc.close_document hd hw (e.closing none))).of_append

theorem heldBefore_le_documentOpened (hc : e.Coherent)
    (hn : e.group = none → e.standard.requiresGroups = false ∧ e.grouping ≠ .grouped) :
    e.heldBefore ≤ (e.documentOpened tables s).next.heldBefore := by
  cases hg : e.group with
  | none =>
    rw [heldBefore_of_group_none hg, heldBefore_of_group_none (by simp [documentOpened, hg])]
    simp only [documentOpened, hg]
    exact outside_le_ungrouped (hn hg).2
  | some g =>
    have hgr : (e.documentOpened tables s).next.group = some { g with
        documents := g.documents + 1 } := by simp [documentOpened, hg]
    rw [heldBefore_of_group hg, heldBefore_of_group hgr]
    simp only [documentOpened, hg]
    exact inGroup_le_grouped (hc.group (by simp [hg]))

theorem Passes.held_halted {role : Role} (hc : e.Coherent) (hs : s.Flat) (hw : w ∈ e.held)
    (hr : e.standard.role s.tag = role) (h : Passes tables s e role t) :
    w ++ t.announced.map .event ∈ t.halted.held := by
  have hw' : w ++ ([] : List Event).map .event ∈ e.held := by simpa using hw
  cases h with
  | groupHeader hd hg hn =>
    rw [held_of_document_none hd, heldBefore_of_group_none hg] at hw
    have ho : (e.groupOpened s).halted.held = inGroup e.standard e.grouping := by
      simp [held, heldBefore, groupOpened, hd]
    rw [ho]
    exact ⟨w, _, [], hw, Language.nil_mem_kstar _, fun _ ↦ rfl, rfl⟩
  | groupTrailer g hd hg => exact hw'
  | documentHeader hd hn =>
    rw [held_of_document_none hd] at hw
    exact ⟨w, _, [], heldBefore_le_documentOpened hc hn hw, .nil, rfl⟩
  | documentTrailer d hd => exact hw'
  | interchangeTrailer h hd hg hi => exact hw'
  | interchangeData hd hg =>
    obtain ⟨hg', ht⟩ := Standard.role_eq_interchangeData.1 hr
    simp only [Transition.plain]
    rw [held_of_document_none hd, heldBefore_of_group_none hg] at hw ⊢
    exact append_segment_mem_outside hg' hw (Segment.events_mem hs ht)
  | data d _ hr hd =>
    simp only [held, hd] at hw
    obtain ⟨u, a, v, hu, hv, rfl⟩ := hw
    have ho := LoopNesting.openBody_transition s.tag hv (Segment.events_mem hs trivial)
    exact ⟨u, a, _, hu, ho, by simp [dataMet, Transition.plain]⟩

theorem Passes.held_next {role : Role} (hc : e.Coherent) (hs : s.Flat) (hw : w ∈ e.held)
    (hr : e.standard.role s.tag = role) (h : Passes tables s e role t)
    (hn : t.next.phase ≠ .done) :
    w ++ (t.announced.map .event ++ t.completed) ∈ t.next.held := by
  have ha := h.held_halted hc hs hw hr
  cases h with
  | groupHeader hd hg hn => simpa [groupOpened] using ha
  | documentHeader hd hn => simpa [documentOpened] using ha
  | interchangeData hd hg => simpa [Transition.plain] using ha
  | data d _ hr hd => simpa [dataMet, Transition.plain] using ha
  | interchangeTrailer h hd hg hi => exact absurd rfl hn
  | groupTrailer g hd hg =>
    rw [held_of_document_none hd] at hw
    have ho : (e.groupClosed s g).next.held = outside e.standard e.grouping := by
      simp [held, heldBefore, groupClosed, hd]
    rw [ho]
    exact hc.close_group hg hw
  | documentTrailer d hd =>
    exact hc.close_document hd hw _

theorem Passes.held_finished {role : Role} (hp : e.phase ≠ .done) (hw : w ∈ e.held)
    (h : Passes tables s e role t) (hn : t.next.phase = .done) :
    w ∈ content e.standard ∧ ∃ c, t.announced.map .event ++ t.completed =
      [.event (.elementEnd ElementName.interchange), .closed c] := by
  cases h with
  | interchangeTrailer h hd hg hi =>
    rw [held_of_document_none hd, heldBefore_of_group_none hg] at hw
    exact ⟨outside_le_content hw, _, rfl⟩
  | interchangeData hd hg => exact absurd hn hp
  | groupHeader hd hg hn' => simp [groupOpened] at hn
  | groupTrailer g hd hg => simp [groupClosed] at hn
  | documentHeader hd hn' => simp [documentOpened] at hn
  | documentTrailer d hd => simp [documentClosed] at hn
  | data d _ hr hd => simp [dataMet, Transition.plain] at hn

theorem Passes.coherent_halted {role : Role} (hc : e.Coherent) (h : Passes tables s e role t) :
    t.halted.Coherent ∧ t.halted.standard = e.standard := by
  have hn := h.coherent hc
  cases h with
  | groupHeader hd hg hn' => exact ⟨hn, rfl⟩
  | documentHeader hd hn' => exact ⟨hn, rfl⟩
  | interchangeData hd hg => exact ⟨hn, rfl⟩
  | data d _ hr hd => exact ⟨hn, rfl⟩
  | groupTrailer g hd hg => exact ⟨hc, rfl⟩
  | documentTrailer d hd => exact ⟨hc, rfl⟩
  | interchangeTrailer h hd hg hi => exact ⟨⟨hc.document, hc.group, hc.required⟩, rfl⟩

def emitted (e : Envelope) : Language Emission :=
  {w | ∃ a u v, a.get? "Standard" = some e.standard.name ∧
    u ∈ party ElementName.sender * party ElementName.receiver ∧ v ∈ e.held ∧
    w = .event (.elementStart ElementName.interchange a) :: (u ++ v)}

theorem append_mem_emitted {e' : Envelope} {x : List Emission} (hs : e'.standard = e.standard)
    (hx : ∀ v ∈ e.held, v ++ x ∈ e'.held) (hw : w ∈ e.emitted) : w ++ x ∈ e'.emitted := by
  obtain ⟨a, u, v, ha, hu, hv, rfl⟩ := hw
  exact ⟨a, u, v ++ x, hs ▸ ha, hu, hx v hv, by simp⟩

theorem append_mem_interchange {c : Closing} (hx : ∀ v ∈ e.held, v ∈ content e.standard)
    (hw : w ∈ e.emitted) :
    w ++ [.event (.elementEnd ElementName.interchange), .closed c] ∈ interchange e.standard := by
  obtain ⟨a, u, v, ha, hu, hv, rfl⟩ := hw
  refine ⟨_, ⟨a, u ++ v, ha, Language.append_mem_mul hu (hx v hv), rfl⟩, _, ⟨c, rfl⟩, ?_⟩
  simp

theorem Coherent.emitted_begins (hc : e.Coherent) (hw : w ∈ e.emitted) :
    Begins (interchange e.standard) w := by
  obtain ⟨a, u, v, ha, hu, hv, rfl⟩ := hw
  obtain ⟨x, hx⟩ := hc.held_begins hv
  refine ⟨x ++ [.event (.elementEnd ElementName.interchange), .closed (e.closing none)],
    _, ⟨a, u ++ (v ++ x), ha, Language.append_mem_mul hu hx, rfl⟩, _, ⟨e.closing none, rfl⟩, ?_⟩
  simp

theorem party_events_mem (name : String) (p : Party) :
    (p.events name).map .event ∈ party name :=
  ⟨.empty, _, trivial, ⟨_, [], trivial, rfl, rfl⟩, rfl⟩

theorem start_mem_emitted (standard : Standard) (header : Segment) :
    (start standard header).announced.map .event ∈ (start standard header).next.emitted := by
  let h := InterchangeHeader.ofSegment standard header
  have ha : ((Attributes.ofList [("Standard", standard.name)]).extend
      h.value.attributes.entries).get? "Standard" = some standard.name :=
    Attributes.get?_extend (InterchangeHeader.standard_notMem_attributes standard header)
  have hn : [] ∈ outside standard .undecided := nil_mem_outside
  refine ⟨_, _, [], ha, Language.append_mem_mul (party_events_mem _ h.value.sender)
    (party_events_mem _ h.value.receiver), hn, ?_⟩
  simp [start, h]

end Envelope

end Edi
