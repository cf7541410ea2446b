import Edi.Stream

namespace Edi

/-- Reads every interchange of what is left of a stream. -/
def Remainder.parseAll (policy : Policy) (options : Options) (earlier : List Problem)
    (rest : Remainder) : Reading (List Closing) :=
  match Reader.resume options rest with
  | .error e => { result := .error e }
  | .ok none => { result := .ok [] }
  | .ok (some r) => r.parseAll policy options earlier

def Reading.behind (emissions : List Emission) (offers : List Offer) (closings : List Closing)
    (r : Reading (List Closing)) : Reading (List Closing) :=
  { r.after emissions offers with result := r.result.map (closings ++ ·) }

@[simp] theorem Reading.behind_nil (r : Reading (List Closing)) : r.behind [] [] [] = r := by
  obtain ⟨emissions, offers, e | closings⟩ := r <;> rfl

theorem Reading.behind_behind (emissions emissions' : List Emission) (offers offers' : List Offer)
    (closings closings' : List Closing) (r : Reading (List Closing)) :
    (r.behind emissions' offers' closings').behind emissions offers closings =
      r.behind (emissions ++ emissions') (offers ++ offers') (closings ++ closings') := by
  cases hr : r.result <;> simp [behind, after, hr, Except.map]

namespace Reader

variable {policy : Policy} {options : Options} {earlier : List Problem} {r : Reader} {c : Closing}

theorem parseAll_of_error {e : Error} (h : (r.parse policy earlier).1.result = .error e) :
    r.parseAll policy options earlier =
      { (r.parse policy earlier).1 with result := .error e } := by
  rw [parseAll]
  split
  · next e' h' =>
    obtain rfl := Except.error.inj (h.symm.trans h')
    rfl
  · next h' => simp [h] at h'

theorem parseAll_of_ok (h : (r.parse policy earlier).1.result = .ok c) :
    r.parseAll policy options earlier =
      let one := r.parse policy earlier
      match resume options one.2.remainder with
      | .error e => { one.1 with result := .error e }
      | .ok none => { one.1 with result := .ok [c] }
      | .ok (some next) =>
        let rest := next.parseAll policy options (earlier ++ one.1.offers.map (·.problem))
        { (rest.after one.1.emissions one.1.offers) with result := rest.result.map (c :: ·) } := by
  rw [parseAll]
  split
  · next h' => simp [h] at h'
  · next c' h' =>
    obtain rfl := Except.ok.inj (h.symm.trans h')
    split <;> next hr => simp only [hr]

theorem parseAll_eq_behind (h : (r.parse policy earlier).1.result = .ok c) :
    r.parseAll policy options earlier =
      let one := r.parse policy earlier
      (one.2.remainder.parseAll policy options (earlier ++ one.1.offers.map (·.problem))).behind
        one.1.emissions one.1.offers [c] := by
  rw [parseAll_of_ok h]
  simp only [Remainder.parseAll]
  split <;> simp [Reading.behind, Reading.after, Except.map]

theorem parseAll_ne_nil (r : Reader) :
    (r.parseAll policy options earlier).result ≠ .ok [] := by
  intro h
  cases hr : (r.parse policy earlier).1.result with
  | error e => simp [parseAll_of_error hr] at h
  | ok c =>
    rw [parseAll_of_ok hr] at h
    dsimp only at h
    split at h
    · simp at h
    · simp at h
    · next next _ =>
      cases hn : (next.parseAll policy options
        (earlier ++ (r.parse policy earlier).1.offers.map (·.problem))).result <;>
        simp [hn, Except.map] at h

theorem parseAll_eq_singleton {r : Reader}
    (h : (r.parseAll policy options earlier).result = .ok [c]) :
    (r.parse policy earlier).1.result = .ok c ∧
      resume options (r.parse policy earlier).2.remainder = .ok none := by
  cases hr : (r.parse policy earlier).1.result with
  | error e => simp [parseAll_of_error hr] at h
  | ok c' =>
    rw [parseAll_of_ok hr] at h
    dsimp only at h
    split at h
    · simp at h
    · next hn =>
      obtain ⟨rfl, -⟩ := List.cons.inj (Except.ok.inj h)
      exact ⟨rfl, hn⟩
    · next next _ =>
      cases hn : (next.parseAll policy options
        (earlier ++ (r.parse policy earlier).1.offers.map (·.problem))).result with
      | error e => simp [hn, Except.map] at h
      | ok cs =>
        simp only [hn, Except.map, Except.ok.injEq, List.cons.injEq] at h
        exact absurd (h.2 ▸ hn) next.parseAll_ne_nil

theorem parseAll_begins (policy : Policy) (options : Options) (earlier : List Problem)
    (r : Reader) :
    (r.parse policy earlier).1.offers <+: (r.parseAll policy options earlier).offers ∧
      (r.parse policy earlier).1.emissions <+: (r.parseAll policy options earlier).emissions := by
  cases hr : (r.parse policy earlier).1.result with
  | error e =>
    rw [parseAll_of_error hr]
    exact ⟨List.prefix_rfl, List.prefix_rfl⟩
  | ok c =>
    rw [parseAll_eq_behind hr]
    exact ⟨List.prefix_append _ _, List.prefix_append _ _⟩

end Reader

theorem parseStream_of_open {policy : Policy} {options : Options} {source : Source}
    {o : Option Reader} (h : Reader.open? options source = .ok o) :
    parseStream policy options source =
      (Remainder.parseAll policy options [] { source }).framed := by
  have hr : Reader.resume options { source } = .ok o := h
  cases o with
  | none => simp only [parseStream, h, Remainder.parseAll, hr]
  | some r => simp only [parseStream, h, Remainder.parseAll, hr]

def Emission.documentOpening : List Emission :=
  [.event .documentStart, .event (.elementStart ElementName.root .empty)]

def Emission.documentClosing : List Emission :=
  [.event (.elementEnd ElementName.root), .event .documentEnd]

namespace Reading

open Emission

variable {α : Type} {r : Reading α}

@[simp] theorem framed_result (r : Reading α) : r.framed.result = r.result := rfl

@[simp] theorem framed_offers (r : Reading α) : r.framed.offers = r.offers := rfl

theorem framed_emissions_of_ok {a : α} (h : r.result = .ok a) :
    r.framed.emissions = documentOpening ++ r.emissions ++ documentClosing := by
  simp [framed, h, documentOpening, documentClosing]

theorem framed_emissions_of_error {e : Error} (h : r.result = .error e) :
    r.framed.emissions = documentOpening ++ r.emissions := by
  simp [framed, h, documentOpening]

theorem framed_begins (r : Reading α) : documentOpening ++ r.emissions <+: r.framed.emissions := by
  cases h : r.result with
  | ok a =>
    rw [framed_emissions_of_ok h]
    exact List.prefix_append _ _
  | error e =>
    exact ⟨[], by rw [framed_emissions_of_error h, List.append_nil]⟩

end Reading

end Edi
