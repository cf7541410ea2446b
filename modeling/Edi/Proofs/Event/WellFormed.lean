import Edi.Proofs.Event.Notices
import Edi.Proofs.Policy
import Edi.Proofs.Reader.Header
import Edi.Stream

namespace Edi

open scoped Computability
open EventGrammar Envelope

variable {policy : Policy} {earlier : List Problem} {standard : Standard} {w : List Emission}
  {t : Transition}

def EventGrammar.brokenOff (standard : Standard) : Language Emission :=
  {w | ∃ e : Envelope, e.Coherent ∧ e.standard = standard ∧ w ∈ e.emitted}

/-- A transition after the emissions `w` of an interchange, whether or not it is halted. -/
structure Transition.Continues (standard : Standard) (w : List Emission) (t : Transition) :
    Prop where
  halted : w ++ t.announced.map .event ∈ brokenOff standard
  coherent : t.next.Coherent
  standard_eq : t.next.standard = standard
  going : t.next.phase ≠ .done → w ++ (t.announced.map .event ++ t.completed) ∈ t.next.emitted
  finished : t.next.phase = .done →
    w ++ (t.announced.map .event ++ t.completed) ∈ interchange standard

theorem Envelope.Passes.continues {tables : LoopTables} {s : Segment} {e : Envelope} {role : Role}
    (hc : e.Coherent) (hp : e.phase ≠ .done) (hs : s.Flat) (hw : w ∈ e.emitted)
    (hr : e.standard.role s.tag = role) (h : Passes tables s e role t) :
    t.Continues e.standard w := by
  obtain ⟨hch, hsh⟩ := h.coherent_halted hc
  constructor
  · exact ⟨_, hch, hsh, append_mem_emitted hsh (fun v hv ↦ h.held_halted hc hs hv hr) hw⟩
  · exact h.coherent hc
  · exact h.standard
  · intro hn
    exact append_mem_emitted h.standard (fun v hv ↦ h.held_next hc hs hv hr hn) hw
  · intro hn
    obtain ⟨c, hx⟩ : ∃ c, t.announced.map .event ++ t.completed =
        [.event (.elementEnd ElementName.interchange), .closed c] := by
      obtain ⟨a, u, v, -, -, hv, -⟩ := hw
      exact (h.held_finished hp hv hn).2
    rw [hx]
    exact append_mem_interchange (fun v hv ↦ (h.held_finished hp hv hn).1) hw

theorem Envelope.start_continues (standard : Standard) (header : Segment) :
    (start standard header).Continues standard [] := by
  have hs := start_mem_emitted standard header
  have hc := (start_settled standard header).toCoherent
  constructor
  · exact ⟨_, hc, rfl, hs⟩
  · exact hc
  · rfl
  · intro _
    simpa [start] using hs
  · intro hn
    simp [start] at hn

/-- After `w`, a reading hands out a word of `done` if it ends well, and one of `broken` if not. -/
def Reading.Yields {α : Type} (done broken : Language Emission) (w : List Emission)
    (r : Reading α) : Prop :=
  match r.result with
  | .ok _ => w ++ r.emissions ∈ done
  | .error _ => w ++ r.emissions ∈ broken

theorem Reading.Yields.mono {α : Type} {done done' broken broken' : Language Emission}
    {r : Reading α} (hd : done ≤ done') (hb : broken ≤ broken') (h : r.Yields done broken w) :
    r.Yields done' broken' w := by
  unfold Yields at h ⊢
  split at h
  · exact hd h
  · exact hb h

theorem Reading.yields_ok {α : Type} {done broken : Language Emission} {r : Reading α} {a : α}
    (hr : r.result = .ok a) : r.Yields done broken w ↔ w ++ r.emissions ∈ done := by
  simp only [Yields, hr]

theorem Reading.yields_error {α : Type} {done broken : Language Emission} {r : Reading α}
    {e : Error} (hr : r.result = .error e) :
    r.Yields done broken w ↔ w ++ r.emissions ∈ broken := by
  simp only [Yields, hr]

theorem Reading.yields_after {α : Type} {done broken : Language Emission} {r : Reading α}
    {emissions : List Emission} {offers : List Offer} :
    (r.after emissions offers).Yields done broken w ↔ r.Yields done broken (w ++ emissions) := by
  simp only [Yields, after, List.append_assoc]

namespace Reader

theorem run_yields (policy : Policy) (earlier : List Problem) (t : Transition) (r : Reader)
    (hd : r.scanner.delimiters.subSubElement = none) (ht : t.Continues standard w) :
    (r.run policy earlier t).1.Yields (interchange standard) (brokenOff standard) w := by
  have hgoing {t : Transition} {w : List Emission} (ht : t.Continues standard w)
      (hn : t.next.phase ≠ .done) : w ++ (t.announced.map .event ++ t.completed) ∈
        brokenOff standard := ⟨t.next, ht.coherent, ht.standard_eq, ht.going hn⟩
  fun_induction run policy earlier t r generalizing w with
  | case1 earlier t r s _ _ p =>
    obtain ⟨he, -⟩ := Transition.settle_refused ‹s.refused = some p›
    change w ++ s.emissions ∈ _
    rw [he]
    exact ht.halted
  | case2 earlier t r s _ _ hr =>
    obtain ⟨he, hn⟩ := Transition.settle_passed hr
    have hp : s.envelope.phase = .done := ‹_›
    change w ++ s.emissions ∈ _
    rw [he]
    exact ht.finished (hn ▸ hp)
  | case3 earlier t r s _ _ hr hp | case4 earlier t r s _ _ hr hp
  | case5 earlier t r s _ _ hr hp =>
    obtain ⟨he, hn⟩ := Transition.settle_passed hr
    change w ++ s.emissions ∈ _
    rw [he]
    exact hgoing ht (hn ▸ hp)
  | case6 earlier t r s r' hr hp segment u hu next hs rest =>
    rename_i ih
    obtain ⟨he, hn⟩ := Transition.settle_passed hr
    have hdu : u.delimiters.subSubElement = none := by
      have hdu := r.scanner.segment_delimiters
      rw [show r.scanner.segment = _ from hu] at hdu
      exact hdu ▸ hd
    have hp' : t.next.phase ≠ .done := hn ▸ hp
    have hc := Passes.continues ht.coherent hp' (Scanner.segment_flat hd hu) (ht.going hp') rfl
      (step_eq_ok (hn ▸ hs))
    rw [ht.standard_eq, ← he] at hc
    exact Reading.yields_after.2 (ih hdu hc)

theorem parse_yields (policy : Policy) (earlier : List Problem) (r : Reader) :
    (r.parse policy earlier).1.Yields (interchange r.standard) (1 + brokenOff r.standard) [] := by
  simp only [parse]
  split
  · exact .inl rfl
  · split
    · exact .inl rfl
    · next header r₀ hh =>
      have hy := run_yields policy earlier _ r₀ (subSubElement_of_readHeader hh)
        (start_continues r₀.standard header)
      rw [← standard_of_readHeader hh]
      exact hy.mono le_rfl le_sup_right

theorem parseAll_yields (policy : Policy) (options : Options) (earlier : List Problem)
    (r : Reader) :
    (r.parseAll policy options earlier).Yields interchanges
      (interchanges * (1 + ⨆ standard, brokenOff standard)) [] := by
  have hone (earlier : List Problem) (r : Reader) :
      (r.parse policy earlier).1.Yields interchanges (1 + ⨆ standard, brokenOff standard) [] := by
    refine (r.parse_yields policy earlier).mono ?_ ?_
    · exact (le_iSup interchange r.standard).trans le_kstar
    · exact sup_le_sup_left (le_iSup brokenOff r.standard) 1
  have hnil : [] ∈ interchanges := Language.nil_mem_kstar _
  fun_induction parseAll policy options earlier r with
  | case1 earlier r one e he =>
    have hb := (Reading.yields_error he).1 (hone earlier r)
    exact ⟨[], hnil, _, hb, rfl⟩
  | case2 earlier r one c hc e hr =>
    have hi := (Reading.yields_ok hc).1 (hone earlier r)
    exact ⟨_, hi, [], .inl rfl, List.append_nil _⟩
  | case3 earlier r one c hc hr => exact (Reading.yields_ok hc).1 (hone earlier r)
  | case4 earlier r one c hc next hr rest _ ih =>
    have hi : one.1.emissions ∈ interchanges := (Reading.yields_ok hc).1 (hone earlier r)
    cases hrest : rest.result with
    | ok cs =>
      have hm : one.1.emissions ++ rest.emissions ∈ interchanges :=
        append_mem_kstar hi ((Reading.yields_ok hrest).1 ih)
      exact (Reading.yields_ok rfl).2 hm
    | error e =>
      obtain ⟨u, hu, v, hv, huv⟩ := (Reading.yields_error hrest).1 ih
      refine (Reading.yields_error rfl).2
        ⟨one.1.emissions ++ u, append_mem_kstar hi hu, v, hv, ?_⟩
      exact (List.append_assoc _ _ _).trans (congrArg (one.1.emissions ++ ·) huv)

end Reader

theorem interchanges_le_noticed : interchanges ≤ noticed :=
  kstar_le_noticed (iSup_le fun _ ↦ interchange_le_noticed)

theorem document_le_noticed : EventGrammar.document ≤ noticed := by
  refine mul_le_noticed (mul_le_noticed ?_ ?_) ?_
  · intro w hm
    obtain rfl := hm
    exact cons_mem_noticed rfl rfl (Language.nil_mem_kstar _)
  · exact within_le_noticed (by decide) interchanges_le_noticed
  · intro w hm
    obtain rfl := hm
    exact cons_mem_noticed rfl rfl (Language.nil_mem_kstar _)

theorem mem_document {u : List Emission} (hu : u ∈ interchanges) (a : Attributes) :
    .event .documentStart :: .event (.elementStart ElementName.root a) ::
      (u ++ [.event (.elementEnd ElementName.root), .event .documentEnd]) ∈
        EventGrammar.document :=
  ⟨_, ⟨_, rfl, _, ⟨a, u, trivial, hu, rfl⟩, rfl⟩, _, rfl, by simp⟩

theorem begins_interchanges {u v : List Emission} (hu : u ∈ interchanges)
    (hv : v ∈ 1 + ⨆ standard, brokenOff standard) : Begins interchanges (u ++ v) := by
  rcases hv with rfl | hv
  · exact .of_mem (by simpa using hu)
  · obtain ⟨standard, e, hc, rfl, hv⟩ := Language.mem_iSup.1 hv
    obtain ⟨x, hx⟩ := hc.emitted_begins hv
    refine ⟨x, ?_⟩
    rw [List.append_assoc]
    exact kstar_append_mem hu (Language.mem_iSup.2 ⟨_, hx⟩)

theorem brokenOff_le_noticed : brokenOff standard ≤ noticed := by
  intro w hm
  obtain ⟨e, -, -, hw⟩ := hm
  exact emitted_le_noticed hw

theorem Reading.framed_wellFormed {r : Reading (List Closing)}
    (h : r.Yields interchanges (interchanges * (1 + ⨆ standard, brokenOff standard)) []) :
    Begins EventGrammar.document r.framed.emissions ∧ r.framed.emissions ∈ noticed ∧
      ∀ closings, r.framed.result = .ok closings → r.framed.emissions ∈ EventGrammar.document := by
  cases hr : r.result with
  | ok closings =>
    have hm : r.framed.emissions ∈ EventGrammar.document := by
      simpa [framed, hr] using mem_document ((yields_ok hr).1 h) .empty
    exact ⟨.of_mem hm, document_le_noticed hm, fun _ _ ↦ hm⟩
  | error e =>
    obtain ⟨u, hu, v, hv, huv⟩ := (yields_error hr).1 h
    have huv : u ++ v = r.emissions := huv
    have he : r.framed.emissions = .event .documentStart ::
        .event (.elementStart ElementName.root .empty) :: (u ++ v) := by
      simp [framed, hr, huv]
    have hn : v ∈ noticed := by
      rcases hv with rfl | hv
      · exact Language.nil_mem_kstar _
      · obtain ⟨standard, hv⟩ := Language.mem_iSup.1 hv
        exact brokenOff_le_noticed hv
    rw [he]
    refine ⟨?_, ?_, ?_⟩
    · obtain ⟨x, hx⟩ := begins_interchanges hu hv
      exact ⟨_, by simpa using mem_document hx .empty⟩
    · exact cons_mem_noticed rfl rfl
        (start_mem_noticed _ (append_mem_noticed (interchanges_le_noticed hu) hn))
    · intro closings hc
      simp [framed, hr] at hc

/-- The shape of what is handed out, whatever is read and however it ends. -/
theorem parseStream_wellFormed (policy : Policy) (options : Options) (source : Source) :
    let r := parseStream policy options source
    match Reader.open? options source with
    | .error _ => r.emissions = []
    | .ok _ => Begins EventGrammar.document r.emissions ∧ r.emissions ∈ noticed ∧
      ∀ closings, r.result = .ok closings → r.emissions ∈ EventGrammar.document := by
  simp only [parseStream]
  cases Reader.open? options source with
  | error e => rfl
  | ok o =>
    cases o with
    | none => exact Reading.framed_wellFormed (Language.nil_mem_kstar _)
    | some r => exact Reading.framed_wellFormed (r.parseAll_yields policy options [])

end Edi
