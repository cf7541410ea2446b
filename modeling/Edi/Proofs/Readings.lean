import Edi.Proofs.Stream

namespace Edi

variable {policy : Policy} {options : Options} {earlier : List Problem}

namespace Reader

variable {r : Reader}

/-- The interchanges that `r` comes to, one after the other: the reading of each, and the reader as
it is left. -/
def readings (policy : Policy) (options : Options) (earlier : List Problem) (r : Reader) :
    List (Reading Closing × Reader) :=
  let one := r.parse policy earlier
  one ::
    match _h : one.1.result with
    | .error _ => []
    | .ok _ =>
      match _hr : resume options one.2.remainder with
      | .ok (some next) =>
        next.readings policy options (earlier ++ one.1.offers.map (·.problem))
      | _ => []
termination_by r.scanner.bound
decreasing_by exact Nat.lt_of_le_of_lt (resume_bound _hr) (parse_lt _h)

theorem readings_of_error {e : Error} (h : (r.parse policy earlier).1.result = .error e) :
    r.readings policy options earlier = [r.parse policy earlier] := by
  rw [readings]
  congr 1
  split
  · rfl
  · next h' => simp [h] at h'

theorem readings_of_ok {c : Closing} (h : (r.parse policy earlier).1.result = .ok c) :
    r.readings policy options earlier =
      let one := r.parse policy earlier
      one ::
        match resume options one.2.remainder with
        | .ok (some next) =>
          next.readings policy options (earlier ++ one.1.offers.map (·.problem))
        | _ => [] := by
  rw [readings]
  dsimp only
  congr 1
  split
  · next h' => simp [h] at h'
  · split <;> simp_all

theorem parseAll_emissions (policy : Policy) (options : Options) (earlier : List Problem)
    (r : Reader) : (r.parseAll policy options earlier).emissions =
      (r.readings policy options earlier).flatMap (·.1.emissions) := by
  fun_induction parseAll policy options earlier r with
  | case1 earlier r one e h =>
    change one.1.emissions = _
    simp [readings_of_error h, one]
  | case2 earlier r one c h e hr | case3 earlier r one c h hr =>
    change one.1.emissions = _
    simp [readings_of_ok h, one, hr]
  | case4 earlier r one c h next hr rest _ ih =>
    change one.1.emissions ++ rest.emissions = _
    rw [readings_of_ok h, ih]
    simp only [one, hr, List.flatMap_cons]

theorem eq_parse_of_mem_readings {rest : Remainder} {y : Reading Closing × Reader}
    (hr : resume options rest = .ok (some r)) (hy : y ∈ r.readings policy options earlier) :
    ∃ rest r earlier, resume options rest = .ok (some r) ∧ y = r.parse policy earlier := by
  induction earlier, r using readings.induct policy options generalizing rest with
  | case1 earlier r one =>
    rename_i ih
    cases h : one.1.result with
    | error e =>
      rw [readings_of_error h] at hy
      exact ⟨rest, r, earlier, hr, List.mem_singleton.1 hy⟩
    | ok c =>
      rw [readings_of_ok h] at hy
      rcases List.mem_cons.1 hy with rfl | hy
      · exact ⟨rest, r, earlier, hr, rfl⟩
      · split at hy
        · next next hn => exact ih c h next hn hn hy
        · simp at hy

end Reader

def readings (policy : Policy) (options : Options) (source : Source) :
    List (Reading Closing × Reader) :=
  match Reader.open? options source with
  | .ok (some r) => r.readings policy options []
  | _ => []

theorem eq_parse_of_mem_readings {source : Source} {y : Reading Closing × Reader}
    (hy : y ∈ readings policy options source) : ∃ rest r earlier,
      Reader.resume options rest = .ok (some r) ∧ y = r.parse policy earlier := by
  simp only [readings] at hy
  split at hy
  · next r hr => exact Reader.eq_parse_of_mem_readings hr hy
  · simp at hy

end Edi
