import Edi.Proofs.Reader.Accepted
import Edi.Proofs.Reader.Resume
import Edi.Proofs.Stream
import Mathlib.Data.List.Basic

namespace Edi

/-- The reading `r` is the reading `full` that passes over every problem, broken off at the problem
`p`, which the policy refuses after it has accepted the problems `ps` before. -/
structure Reading.RefusedAt {α β : Type} (policy : Policy) (earlier ps : List Problem) (p : Problem)
    (full : Reading β) (r : Reading α) : Prop where
  offered : ∃ later, full.offers.map (·.problem) = ps ++ p :: later
  accepts : policy.Accepts earlier ps
  refuses : policy (earlier ++ ps) p = false
  offers : r.offers = ps.map (⟨·, true⟩) ++ [⟨p, false⟩]
  result : r.result = .error (.aborted p)
  emissions : r.emissions <+: full.emissions

variable {policy : Policy} {options : Options} {earlier ps qs : List Problem} {p : Problem}

namespace Reading.RefusedAt

variable {α β γ : Type} {full : Reading β} {r : Reading α}

theorem after (emissions : List Emission) (h : RefusedAt policy (earlier ++ qs) ps p full r)
    (ha : policy.Accepts earlier qs) :
    RefusedAt policy earlier (qs ++ ps) p (full.after emissions (qs.map (⟨·, true⟩)))
      (r.after emissions (qs.map (⟨·, true⟩))) := by
  obtain ⟨later, hl⟩ := h.offered
  constructor
  · exact ⟨later, by simp [Reading.after, hl, Function.comp_def]⟩
  · exact Policy.accepts_append.2 ⟨ha, h.accepts⟩
  · simpa using h.refuses
  · simp [Reading.after, h.offers]
  · exact h.result
  · exact List.prefix_append_right_inj _ |>.2 h.emissions

theorem extend {full' : Reading γ} (h : RefusedAt policy earlier ps p full r)
    (ho : full.offers <+: full'.offers) (he : full.emissions <+: full'.emissions) :
    RefusedAt policy earlier ps p full' r := by
  obtain ⟨later, hl⟩ := h.offered
  obtain ⟨more, hm⟩ := ho
  refine ⟨⟨later ++ more.map (·.problem), ?_⟩, h.accepts, h.refuses, h.offers, h.result,
    h.emissions.trans he⟩
  simp [← hm, hl]

end Reading.RefusedAt

namespace Reader

theorem run_lenient_accepted (earlier : List Problem) (tr : Transition) (r : Reader) :
    ∃ ps : List Problem, (r.run .lenient earlier tr).1.offers = ps.map (⟨·, true⟩) := by
  have hrun := r.run_lenient earlier tr
  generalize r.scanner = t, (r.run .lenient earlier tr).1 = reading,
    (r.run .lenient earlier tr).2.scanner = t' at hrun ⊢
  induction hrun with
  | @step tr _ _ _ _ _ _ _ _ _ _ ih =>
    obtain ⟨ps, hp⟩ := ih
    exact ⟨tr.problems ++ ps, by simp [Reading.after, hp]⟩
  | _ => exact ⟨_, rfl⟩

theorem run_refused {tr : Transition} (ht : tr.problems = ps ++ p :: qs)
    (ha : policy.Accepts earlier ps) (hp : policy (earlier ++ ps) p = false) (r : Reader) :
    Reading.RefusedAt policy earlier ps p (r.run .lenient earlier tr).1
      (r.run policy earlier tr).1 := by
  obtain ⟨ho, he⟩ := run_begins .lenient earlier tr r
  rw [Transition.settle_of_accepts Policy.accepts_lenient] at ho he
  have hr : (r.run policy earlier tr).1 =
      { emissions := tr.announced.map .event,
        offers := ps.map (⟨·, true⟩) ++ [⟨p, false⟩], result := .error (.aborted p) } := by
    rw [run_eq, Transition.settle_of_refuses ht ha hp]
  rw [hr]
  obtain ⟨later, hlater⟩ := ho
  refine ⟨⟨qs ++ later.map (·.problem), ?_⟩, ha, hp, rfl, rfl, ?_⟩
  · rw [← hlater, List.map_append, Offer.map_problem_accepted, ht]
    simp
  · exact (List.prefix_append _ _).trans he

theorem run_accepted_or_refused (policy : Policy) (earlier : List Problem) (tr : Transition)
    (r : Reader) :
    (policy.Accepts earlier ((r.run .lenient earlier tr).1.offers.map (·.problem)) ∧
        r.run policy earlier tr = r.run .lenient earlier tr) ∨
      ∃ ps p, Reading.RefusedAt policy earlier ps p (r.run .lenient earlier tr).1
        (r.run policy earlier tr).1 := by
  induction hb : r.scanner.bound using Nat.strongRecOn generalizing earlier tr r with
  | ind n ih =>
    rcases Policy.accepts_or_refuses policy earlier tr.problems with ha | ⟨ps, p, qs, ht, ha, hp⟩
    · have hl : r.run .lenient earlier tr = _ := run_of_accepts Policy.accepts_lenient r
      have hr := run_of_accepts ha r
      have hstop :
          policy.Accepts earlier ((tr.problems.map (Offer.mk · true)).map (·.problem)) := by
        rwa [Offer.map_problem_accepted]
      by_cases hd : tr.next.phase = .done
      · simp only [hd, ↓reduceIte] at hl hr
        rw [hl, hr]
        exact .inl ⟨hstop, rfl⟩
      · simp only [hd, ↓reduceIte] at hl hr
        rcases hs : r.scanner.segment with ⟨e | _ | s, u⟩ <;> simp only [hs] at hl hr
        · rw [hl, hr]
          exact .inl ⟨hstop, rfl⟩
        · rw [hl, hr]
          exact .inl ⟨hstop, rfl⟩
        · cases hn : tr.next.step r.tables s with
          | error e =>
            simp only [hn] at hl hr
            rw [hl, hr]
            exact .inl ⟨hstop, rfl⟩
          | ok next =>
            simp only [hn] at hl hr
            rw [hl, hr]
            rcases ih _ (hb ▸ Scanner.segment_lt hs) (earlier ++ tr.problems) next { r with
                scanner := u, envelope := some tr.next, recovered := r.recovered ++ tr.problems }
                rfl with ⟨hacc, heq⟩ | ⟨ps, p, h⟩
            · refine .inl ⟨?_, by rw [heq]⟩
              simp only [Reading.after, List.map_append, Offer.map_problem_accepted]
              exact Policy.accepts_append.2 ⟨ha, hacc⟩
            · exact .inr ⟨tr.problems ++ ps, p, h.after _ ha⟩
    · exact .inr ⟨ps, p, run_refused ht ha hp r⟩

theorem parse_accepted_or_refused (policy : Policy) (earlier : List Problem) (r : Reader) :
    (policy.Accepts earlier ((r.parse .lenient earlier).1.offers.map (·.problem)) ∧
        r.parse policy earlier = r.parse .lenient earlier) ∨
      ∃ ps p, Reading.RefusedAt policy earlier ps p (r.parse .lenient earlier).1
        (r.parse policy earlier).1 := by
  simp only [parse]
  split
  · exact .inl ⟨Policy.accepts_nil, rfl⟩
  · split
    · exact .inl ⟨Policy.accepts_nil, rfl⟩
    · exact run_accepted_or_refused policy earlier _ _

theorem parse_lenient_accepted (earlier : List Problem) (r : Reader) :
    ∃ ps : List Problem, (r.parse .lenient earlier).1.offers = ps.map (⟨·, true⟩) := by
  simp only [parse]
  split
  · exact ⟨[], rfl⟩
  · split
    · exact ⟨[], rfl⟩
    · exact run_lenient_accepted earlier _ _

theorem parseAll_accepted_or_refused (policy : Policy) (options : Options)
    (earlier : List Problem) (r : Reader) :
    (policy.Accepts earlier ((r.parseAll .lenient options earlier).offers.map (·.problem)) ∧
        r.parseAll policy options earlier = r.parseAll .lenient options earlier) ∨
      ∃ ps p, Reading.RefusedAt policy earlier ps p (r.parseAll .lenient options earlier)
        (r.parseAll policy options earlier) := by
  induction hb : r.scanner.bound using Nat.strongRecOn generalizing earlier r with
  | ind n ih =>
    rcases parse_accepted_or_refused policy earlier r with ⟨ha, heq⟩ | ⟨ps, p, h⟩
    · cases hl : (r.parse .lenient earlier).1.result with
      | error e =>
        have hr : (r.parse policy earlier).1.result = .error e := by rw [heq, hl]
        rw [parseAll_of_error hl, parseAll_of_error hr, heq]
        exact .inl ⟨ha, rfl⟩
      | ok c =>
        have hr : (r.parse policy earlier).1.result = .ok c := by rw [heq, hl]
        obtain ⟨qs, hq⟩ := parse_lenient_accepted earlier r
        have hlt := parse_lt hl
        rw [hq, Offer.map_problem_accepted] at ha
        rw [parseAll_of_ok hl, parseAll_of_ok hr, heq]
        dsimp only
        rw [hq, Offer.map_problem_accepted]
        split
        · exact .inl ⟨by simpa [Function.comp_def] using ha, rfl⟩
        · exact .inl ⟨by simpa [Function.comp_def] using ha, rfl⟩
        · next next hn =>
          have hlt : next.scanner.bound < n := hb ▸ Nat.lt_of_le_of_lt (resume_bound hn) hlt
          rcases ih _ hlt (earlier ++ qs) next rfl with ⟨hacc, hnext⟩ | ⟨ps, p, hn⟩
          · refine .inl ⟨?_, by rw [hnext]⟩
            simp only [Reading.after, List.map_append, Offer.map_problem_accepted]
            exact Policy.accepts_append.2 ⟨ha, hacc⟩
          · have hn' := hn.after (r.parse .lenient earlier).1.emissions ha
            refine .inr ⟨qs ++ ps, p, ⟨hn'.offered, hn'.accepts, hn'.refuses, hn'.offers, ?_,
              hn'.emissions⟩⟩
            rw [hn.result]
            rfl
    · have hr : r.parseAll policy options earlier = _ := parseAll_of_error h.result
      obtain ⟨ho, he⟩ := parseAll_begins .lenient options earlier r
      have h' := h.extend ho he
      refine .inr ⟨ps, p, ⟨h'.offered, h'.accepts, h'.refuses, ?_, ?_, ?_⟩⟩
      · rw [hr]
        exact h'.offers
      · rw [hr]
      · rw [hr]
        exact h'.emissions

@[simp] theorem readHeader_recovered (r : Reader) : r.readHeader.2.recovered = r.recovered := by
  simp only [readHeader]
  repeat' split
  all_goals rfl

theorem run_recovered (policy : Policy) (earlier : List Problem) (tr : Transition) (r : Reader) :
    (r.run policy earlier tr).2.recovered =
      r.recovered ++ (r.run policy earlier tr).1.offers.filterMap Offer.accepted? := by
  induction hb : r.scanner.bound using Nat.strongRecOn generalizing earlier tr r with
  | ind n ih =>
    rw [run_eq]
    dsimp only
    split
    · rfl
    · split
      · rfl
      · split
        · rfl
        · rfl
        · next s u hs =>
          split
          · rfl
          · next next _ =>
            rw [ih _ (hb ▸ Scanner.segment_lt hs) _ _ _ rfl]
            simp [Reading.after]

theorem parse_recovered (policy : Policy) (earlier : List Problem) {r : Reader}
    (h : r.envelope = none) : (r.parse policy earlier).2.recovered =
      r.recovered ++ (r.parse policy earlier).1.offers.filterMap Offer.accepted? := by
  have hr := r.readHeader_recovered
  simp only [parse, h]
  split
  · next hh => simpa [hh] using hr
  · next hh =>
    rw [hh] at hr
    rw [run_recovered, hr]

end Reader

theorem Remainder.parseAll_accepted_or_refused (policy : Policy) (options : Options)
    (earlier : List Problem) (rest : Remainder) :
    (policy.Accepts earlier ((rest.parseAll .lenient options earlier).offers.map (·.problem)) ∧
        rest.parseAll policy options earlier = rest.parseAll .lenient options earlier) ∨
      ∃ ps p, Reading.RefusedAt policy earlier ps p (rest.parseAll .lenient options earlier)
        (rest.parseAll policy options earlier) := by
  simp only [Remainder.parseAll]
  split
  · exact .inl ⟨Policy.accepts_nil, rfl⟩
  · exact .inl ⟨Policy.accepts_nil, rfl⟩
  · exact Reader.parseAll_accepted_or_refused policy options earlier _

theorem Reading.RefusedAt.framed {α β : Type} {full : Reading β} {r : Reading α}
    (h : RefusedAt policy earlier ps p full r) :
    RefusedAt policy earlier ps p full.framed r.framed := by
  refine ⟨h.offered, h.accepts, h.refuses, h.offers, h.result, ?_⟩
  obtain ⟨later, hl⟩ := h.emissions
  simp [Reading.framed, h.result, ← hl]

/-- A policy cannot but cut a reading short, at the first problem that it refuses, and what a
reader has recovered from is what the policy has accepted in its interchange. -/
theorem parseStream_accepted_or_refused (policy : Policy) (options : Options) (source : Source) :
    let full := parseStream .lenient options source
    let r := parseStream policy options source
    ((policy.Accepts [] (full.offers.map (·.problem)) ∧ r = full) ∨
        ∃ ps p, Reading.RefusedAt policy [] ps p full r) ∧
      ∀ rest reader, Reader.resume options rest = .ok (some reader) → ∀ earlier,
        (reader.parse policy earlier).2.recovered =
          (reader.parse policy earlier).1.offers.filterMap Offer.accepted? := by
  refine ⟨?_, ?_⟩
  · cases ho : Reader.open? options source with
    | error e =>
      simp only [parseStream, ho]
      exact .inl ⟨Policy.accepts_nil, trivial⟩
    | ok o =>
      simp only [parseStream_of_open ho]
      rcases Remainder.parseAll_accepted_or_refused policy options [] { source } with
        ⟨ha, heq⟩ | ⟨ps, p, h⟩
      · exact .inl ⟨ha, by rw [heq]⟩
      · exact .inr ⟨ps, p, h.framed⟩
  · intro rest reader hr earlier
    rw [Reader.parse_recovered policy earlier (Reader.resume_envelope hr),
      Reader.resume_recovered hr, List.nil_append]

/-- The count of the trailer is passed over, and its control number is not. -/
theorem parseStream_accepted_or_refused_trailer :
    let policy := Policy.ofVerdicts [true, false]
    let source := Source.text "UNB+UNOC:3+A+B+240101:1200+1'UNZ+9+2'".toList
    let full := parseStream .lenient {} source
    let scanner := ((Scanner.ofRemainder { field := '*', terminator := '~' } {}
      { source }).skipBlank.2.peek Standard.quotedLength).2
    let reader : Reader := { standard := .edifact, scanner, tables := {} }
    full.offers.map (·.problem.kind) = [.countMismatch, .controlNumberMismatch] ∧
      (∃ ps p, Reading.RefusedAt policy [] ps p full (parseStream policy {} source)) ∧
      Reader.resume {} { source } = .ok (some reader) ∧
      (reader.parse policy []).2.recovered.map (·.kind) = [.countMismatch] ∧
      (reader.parse policy []).2.recovered =
        (reader.parse policy []).1.offers.filterMap Offer.accepted? := by
  intro policy source full scanner reader
  obtain ⟨h, hrecovered⟩ := parseStream_accepted_or_refused policy {} source
  have hr : Reader.resume {} { source } = .ok (some reader) := by decide +kernel
  refine ⟨by decide +kernel, h.resolve_left ?_, hr, by decide +kernel, hrecovered _ _ hr []⟩
  rintro ⟨-, heq⟩
  have ho : (parseStream policy {} source).offers = full.offers := congrArg Reading.offers heq
  exact absurd ho (by decide +kernel)

end Edi
