import Edi.Proofs.Reader.Follow
import Edi.Proofs.Stream

namespace Edi

variable {distance stop : Nat} {more : List Char} {policy : Policy} {options : Options}
  {earlier earlier' : List Problem} {a a' : Remainder} {emissions : List Emission}
  {offers offers' : List Offer} {closings : List Closing}

namespace Reading

theorem failsAlike_shift {α : Type} {x : Reading α} {e : Error} (h : x.result = .error e) :
    x.FailsAlike distance (x.shift distance) := by
  refine ⟨e, h, List.prefix_rfl, .inr ⟨e.shift distance, ?_, ?_⟩⟩
  · rw [shift, h]
    rfl
  · rintro rfl
    exact e.shift_zero

theorem FailsAlike.behind {x y : Reading (List Closing)} (h : x.FailsAlike distance y) :
    (x.behind emissions offers closings).FailsAlike distance
      (y.behind emissions offers' closings') := by
  obtain ⟨e, hx, hpre, hor⟩ := h
  refine ⟨e, by simp [Reading.behind, Reading.after, hx, Except.map], ?_, ?_⟩
  · exact (List.prefix_append_right_inj _).2 hpre
  · rcases hor with hi | ⟨e', hy, hd⟩
    · exact .inl hi
    · exact .inr ⟨e', by simp [Reading.behind, Reading.after, hy, Except.map], hd⟩

/-- The reading `x` ends well. The reading `y` hands out all that `x` does and then reads the
interchanges in what is left where the text of `x` ends: blanks, and then `more`. -/
def GoesOn (distance : Nat) (more : List Char) (stop : Nat) (policy : Policy) (options : Options)
    (earlier : List Problem) (x y : Reading (List Closing)) : Prop :=
  ∃ closings, ∃ z : Remainder, ∃ bs, x.result = .ok closings ∧ Text.IsBlank bs ∧
    z.Holds (bs ++ more) ∧ z.offset + bs.length = stop + distance ∧
    y = (z.parseAll policy options
      (earlier ++ x.offers.map (·.problem.shift distance))).behind x.emissions
        (x.offers.map (·.shift distance)) closings

theorem GoesOn.behind {x y : Reading (List Closing)}
    (h : GoesOn distance more stop policy options
      (earlier ++ offers.map (·.problem.shift distance)) x y) :
    GoesOn distance more stop policy options earlier (x.behind emissions offers closings)
      (y.behind emissions (offers.map (·.shift distance)) closings) := by
  obtain ⟨closings', z, bs, hx, hbs, hz, ho, rfl⟩ := h
  refine ⟨closings ++ closings', z, bs, ?_, hbs, hz, ho, ?_⟩
  · simp [Reading.behind, Reading.after, hx, Except.map]
  · rw [behind_behind]
    simp [Reading.behind, Reading.after]

open Emission

theorem FailsAlike.framed {x y : Reading (List Closing)} (h : x.FailsAlike 0 y) :
    ∃ e, x.result = .error e ∧ x.framed.emissions <+: y.framed.emissions ∧
      (e.Inconclusive ∨ y.result = .error e) := by
  obtain ⟨e, hx, hpre, hor⟩ := h
  refine ⟨e, hx, ?_, ?_⟩
  · rw [framed_emissions_of_error hx]
    exact ((List.prefix_append_right_inj _).2 hpre).trans y.framed_begins
  · rcases hor with hi | ⟨e', hy, he⟩
    · exact .inl hi
    · exact .inr (he rfl ▸ hy)

theorem GoesOn.framed {x y : Reading (List Closing)}
    (h : GoesOn distance more stop policy options earlier x y) :
    ∃ closings body, x.result = .ok closings ∧
      x.framed.emissions = body ++ documentClosing ∧ body <+: y.framed.emissions := by
  obtain ⟨closings, z, bs, hx, -, -, -, rfl⟩ := h
  refine ⟨closings, _, hx, framed_emissions_of_ok hx, ?_⟩
  refine List.IsPrefix.trans ?_ (framed_begins _)
  exact (List.prefix_append_right_inj _).2 (List.prefix_append _ _)

end Reading

theorem Reader.parseAll_failsAlike {r r' : Reader}
    (h : (r.parse policy earlier).1.FailsAlike distance (r'.parse policy earlier').1) :
    (r.parseAll policy options earlier).FailsAlike distance
      (r'.parseAll policy options earlier') := by
  obtain ⟨e, hx, hpre, hor⟩ := h
  rw [parseAll_of_error hx]
  refine ⟨e, rfl, ?_, ?_⟩
  · exact hpre.trans (parseAll_begins policy options earlier' r').2
  · rcases hor with hi | ⟨e', hy, hd⟩
    · exact .inl hi
    · exact .inr ⟨e', by rw [parseAll_of_error hy], hd⟩

theorem Remainder.Follows.parseAll (options : Options)
    (hp : policy.Relocates distance earlier earlier')
    (h : a.Follows distance more stop a') :
    Reading.GoesOn distance more stop policy options earlier'
        (a.parseAll policy options earlier) (a'.parseAll policy options earlier') ∨
      (a.parseAll policy options earlier).FailsAlike distance
        (a'.parseAll policy options earlier') := by
  induction hb : a.source.bound + a.leftover.length using Nat.strongRecOn
    generalizing a a' earlier earlier' with
  | ind n ih =>
    rcases h.resume options with
      ⟨r, r', hr, hr', hf, hat⟩ | ⟨found, hr⟩ | ⟨hr, bs, hbs, ha', ho⟩
    · have hx : a.parseAll policy options earlier = r.parseAll policy options earlier := by
        simp only [Remainder.parseAll, hr]
      have hy : a'.parseAll policy options earlier' = r'.parseAll policy options earlier' := by
        simp only [Remainder.parseAll, hr']
      rw [hx, hy]
      rcases hf.parse hp (Reader.resume_envelope hr) hat with ⟨heq, hok⟩ | hfail
      · cases hres : (r.parse policy earlier).1.result with
        | error e =>
          right
          apply Reader.parseAll_failsAlike
          rw [heq]
          exact Reading.failsAlike_shift hres
        | ok c =>
          have hres' : (r'.parse policy earlier').1.result = .ok c := by
            rw [heq, Reading.shift, hres]
            rfl
          have hlt := Nat.lt_of_lt_of_le (Reader.parse_lt hres) (Reader.resume_bound hr)
          rw [Reader.parseAll_eq_behind hres, Reader.parseAll_eq_behind hres']
          simp only [heq, Reading.shift, List.map_map, Function.comp_def, Offer.shift_problem]
          have hpn := hp.append ((r.parse policy earlier).1.offers.map (·.problem))
          simp only [List.map_map, Function.comp_def] at hpn
          rcases ih _ (hb ▸ hlt) hpn (hok ⟨c, hres⟩).remainder rfl with hg | hfail
          · exact .inl hg.behind
          · exact .inr hfail.behind
      · exact .inr (Reader.parseAll_failsAlike hfail)
    · have hx : a.parseAll policy options earlier =
          { result := .error (.unsupportedDialect found) } := by
        simp only [Remainder.parseAll, hr]
      rw [hx]
      exact .inr ⟨_, rfl, List.nil_prefix, .inl (.unsupportedDialect found)⟩
    · have hx : a.parseAll policy options earlier = { result := .ok [] } := by
        simp only [Remainder.parseAll, hr]
      rw [hx]
      exact .inl ⟨[], a', bs, rfl, hbs, ha', ho, by simp⟩

theorem Remainder.follows_append (text more : List Char) :
    Remainder.Follows 0 more text.length { source := .text text }
      { source := .text (text ++ more) } :=
  ⟨[], text, by simp [Text.IsBlank], ⟨text, rfl, rfl⟩, ⟨text ++ more, rfl, rfl⟩, rfl, by simp⟩

theorem Reader.open?_append (options : Options) (text more : List Char) :
    (∃ r r', Reader.open? options (.text text) = .ok (some r) ∧
      Reader.open? options (.text (text ++ more)) = .ok (some r')) ∨
    (∃ found, Reader.open? options (.text text) = .error (.unsupportedDialect found)) ∨
    (Reader.open? options (.text text) = .ok none ∧ Text.IsBlank text) := by
  rcases (Remainder.follows_append text more).resume options with
    ⟨r, r', hr, hr', -⟩ | ⟨found, hr⟩ | ⟨hr, bs, hbs, ⟨rest, hrest, hc⟩, -⟩
  · exact .inl ⟨r, r', hr, hr'⟩
  · exact .inr (.inl ⟨found, hr⟩)
  · obtain rfl : text ++ more = rest := hrest
    obtain rfl : text = bs := List.append_cancel_right hc
    exact .inr (.inr ⟨hr, hbs⟩)

open Emission

theorem parseStream_opens_or_turnsAway (policy : Policy) (options : Options) (text : List Char) :
    let r := parseStream policy options (.text text)
    documentOpening <+: r.emissions ∨
      r.emissions = [] ∧ ∃ found, r.result = .error (.unsupportedDialect found) := by
  rcases Reader.open?_append options text [] with ⟨r, -, ho, -⟩ | ⟨found, ho⟩ | ⟨ho, -⟩
  · left
    rw [parseStream_of_open ho]
    exact (List.prefix_append _ _).trans (Reading.framed_begins _)
  · right
    simp only [parseStream, ho]
    exact ⟨trivial, found, rfl⟩
  · left
    rw [parseStream_of_open ho]
    exact (List.prefix_append _ _).trans (Reading.framed_begins _)

/-- Text that comes later changes nothing of what was handed out before. A failure that does not
come of the end of the text stays as it is, and after a text that was read well all but the closing
of the document stays, unless there was nothing in that text and what comes later is turned away. -/
theorem parseStream_append (policy : Policy) (options : Options) (text more : List Char) :
    let x := parseStream policy options (.text text)
    let y := parseStream policy options (.text (text ++ more))
    match x.result with
    | .error e => x.emissions <+: y.emissions ∧ (e.Inconclusive ∨ y.result = .error e)
    | .ok _ => ∃ body, x.emissions = body ++ documentClosing ∧
      (body <+: y.emissions ∨
        Text.IsBlank text ∧ y.emissions = [] ∧
          ∃ found, y.result = .error (.unsupportedDialect found)) := by
  rcases Reader.open?_append options text more with ⟨r, r', hr, hr'⟩ | ⟨found, hr⟩ | ⟨hr, hb⟩
  · simp only [parseStream_of_open hr, parseStream_of_open hr', Reading.framed_result]
    rcases (Remainder.follows_append text more).parseAll options (policy.relocates_zero []) with
      hg | hfail
    · obtain ⟨closings, body, hx, hbody, hpre⟩ := hg.framed
      rw [hx]
      exact ⟨body, hbody, .inl hpre⟩
    · obtain ⟨e, hx, hpre, hor⟩ := hfail.framed
      rw [hx]
      exact ⟨hpre, hor⟩
  · have hx : parseStream policy options (.text text) =
        { result := .error (.unsupportedDialect found) } := by
      simp only [parseStream, hr]
    simp only [hx]
    exact ⟨List.nil_prefix, .inl (.unsupportedDialect found)⟩
  · have hx : parseStream policy options (.text text) = Reading.framed { result := .ok [] } := by
      simp only [parseStream, hr]
    simp only [hx, Reading.framed_result]
    refine ⟨documentOpening, rfl, ?_⟩
    rcases parseStream_opens_or_turnsAway policy options (text ++ more) with hpre | haway
    · exact .inl hpre
    · exact .inr ⟨hb, haway⟩

/-- After an empty text comes a character that begins no interchange, and the document is not even
opened. -/
theorem parseStream_append_nothing :
    let x := parseStream .lenient {} (.text [])
    let y := parseStream .lenient {} (.text ([] ++ ['x']))
    x.result = .ok [] ∧ ¬x.emissions.take (x.emissions.length - 2) <+: y.emissions := by
  decide +kernel

end Edi
