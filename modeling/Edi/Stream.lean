import Edi.Reader

namespace Edi

def Reader.parseAll (policy : Policy) (options : Options) (earlier : List Problem) (r : Reader) :
    Reading (List Closing) :=
  let one := r.parse policy earlier
  match _h : one.1.result with
  | .error e => { one.1 with result := .error e }
  | .ok c =>
    match _hr : Reader.resume options one.2.remainder with
    | .error e => { one.1 with result := .error e }
    | .ok none => { one.1 with result := .ok [c] }
    | .ok (some next) =>
      let rest := next.parseAll policy options (earlier ++ one.1.offers.map (·.problem))
      { (rest.after one.1.emissions one.1.offers) with result := rest.result.map (c :: ·) }
termination_by r.scanner.bound
decreasing_by exact Nat.lt_of_le_of_lt (resume_bound _hr) (parse_lt _h)

/-- Puts the frame of a document around a reading. A failed reading leaves it open. -/
def Reading.framed {α : Type} (r : Reading α) : Reading α :=
  { r with
    emissions :=
      .event .documentStart :: .event (.elementStart ElementName.root .empty) :: r.emissions ++
        match r.result with
        | .ok _ => [.event (.elementEnd ElementName.root), .event .documentEnd]
        | .error _ => [] }

/-- Reads every interchange of a source, in order. Where no interchange can be recognized at its
beginning, nothing is handed out. -/
def parseStream (policy : Policy) (options : Options) (source : Source) :
    Reading (List Closing) :=
  match Reader.open? options source with
  | .error e => { result := .error e }
  | .ok none => Reading.framed { result := .ok [] }
  | .ok (some r) => (r.parseAll policy options []).framed

def parseText (policy : Policy) (options : Options) (text : String) : Reading (List Closing) :=
  parseStream policy options (.text text.toList)

end Edi
