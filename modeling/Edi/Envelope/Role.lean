import Edi.Standard

namespace Edi

inductive Role
  | interchangeHeader
  | interchangeTrailer
  | groupHeader
  | groupTrailer
  | documentHeader
  | documentTrailer
  /-- Stands in the interchange, outside of groups; inside a document it is data. -/
  | interchangeData
  | data
  deriving DecidableEq, Repr

namespace Standard

def role (standard : Standard) (tag : String) : Role :=
  match standard, tag with
  | x12, "ISA" => .interchangeHeader
  | x12, "IEA" => .interchangeTrailer
  | x12, "GS" => .groupHeader
  | x12, "GE" => .groupTrailer
  | x12, "ST" => .documentHeader
  | x12, "SE" => .documentTrailer
  | x12, "TA1" => .interchangeData
  | edifact, "UNA" => .interchangeHeader
  | edifact, "UNB" => .interchangeHeader
  | edifact, "UNZ" => .interchangeTrailer
  | edifact, "UNG" => .groupHeader
  | edifact, "UNE" => .groupTrailer
  | edifact, "UNH" => .documentHeader
  | edifact, "UNT" => .documentTrailer
  | tradacoms, "STX" => .interchangeHeader
  | tradacoms, "END" => .interchangeTrailer
  | tradacoms, "BAT" => .groupHeader
  | tradacoms, "EOB" => .groupTrailer
  | tradacoms, "MHD" => .documentHeader
  | tradacoms, "MTR" => .documentTrailer
  | _, _ => .data

def headerTag : Standard → String
  | x12 => "ISA"
  | edifact => "UNB"
  | tradacoms => "STX"

def requiresGroups : Standard → Bool
  | x12 => true
  | edifact | tradacoms => false

def trailersCarryControl : Standard → Bool
  | x12 | edifact => true
  | tradacoms => false

/-- What the interchange trailer counts: groups where there are any, except that it counts
documents always in TRADACOMS. -/
def interchangeCount (standard : Standard) (groups documents : Nat) : Nat :=
  if standard ≠ tradacoms ∧ 0 < groups then groups else documents

end Standard

end Edi
