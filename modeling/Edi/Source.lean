import Edi.Error
import Edi.Text.Utf8

namespace Edi

inductive Delivery
  | bytes (bs : List UInt8)
  | interrupted
  | failure (message : String)
  deriving DecidableEq, Repr

def Delivery.content (ds : List Delivery) : List UInt8 :=
  ds.flatMap fun
    | .bytes bs => bs
    | _ => []

/-- At most `share` bytes of the next delivery, none at the end. An interrupted delivery is asked
for again; a failed one is gone, and nothing else with it. -/
def Delivery.pull (share : Nat) : List Delivery → Except Error (List UInt8) × List Delivery
  | [] => (.ok [], [])
  | .interrupted :: ds => pull share ds
  | .failure message :: ds => (.error (.io message), ds)
  | .bytes bs :: ds =>
    (.ok (bs.take share),
      match bs.drop share with
      | [] => ds
      | left => .bytes left :: ds)

structure ByteReader where
  deliveries : List Delivery
  share : Nat
  pending : List UInt8 := []
  ended : Bool := false
  deriving DecidableEq, Repr

/-- Asks for `chunk` bytes at once, but for no fewer than the longest encoding of one character
has; `step` is the most that one delivery hands out, if it sets a limit. -/
def ByteReader.ofDeliveries (chunk : Nat) (step : Option Nat) (deliveries : List Delivery) :
    ByteReader :=
  { deliveries, share := (step.getD (max chunk 4)).min (max chunk 4) }

inductive Source
  | text (unread : List Char)
  | bytes (reader : ByteReader)
  deriving DecidableEq, Repr

namespace ByteReader

def bound (r : ByteReader) : Nat := r.pending.length + (Delivery.content r.deliveries).length

def pulls (r : ByteReader) : Nat :=
  if r.ended then 0 else (Delivery.content r.deliveries).length + 1

theorem pull_content {share : Nat} {ds rest : List Delivery} {bs : List UInt8}
    (h : Delivery.pull share ds = (.ok bs, rest)) :
    Delivery.content ds = bs ++ Delivery.content rest := by
  induction ds with
  | nil => simp_all [Delivery.pull, Delivery.content]
  | cons d ds ih =>
    cases d with
    | interrupted => simpa [Delivery.content] using ih h
    | failure m => simp [Delivery.pull] at h
    | bytes b =>
      simp only [Delivery.pull, Prod.mk.injEq, Except.ok.injEq] at h
      obtain ⟨rfl, rfl⟩ := h
      have hb := List.take_append_drop share b
      split
      · next hd => simp_all [Delivery.content]
      · simp only [Delivery.content, List.flatMap_cons]
        rw [← List.append_assoc, hb]

theorem pull_error {share : Nat} {ds rest : List Delivery} {e : Error}
    (h : Delivery.pull share ds = (.error e, rest)) :
    Delivery.content ds = Delivery.content rest := by
  induction ds with
  | nil => simp [Delivery.pull] at h
  | cons d ds ih =>
    cases d with
    | interrupted => simpa [Delivery.content] using ih h
    | failure m => simp_all [Delivery.pull, Delivery.content]
    | bytes b => simp [Delivery.pull] at h

/-- At most `max` characters, at least one unless `max` is zero or the input has ended. A sequence
cut off by the end is read as one replacement. -/
def read (max : Nat) (r : ByteReader) : Except Error (List Char) × ByteReader :=
  if max = 0 then (.ok [], r)
  else
    let d := Text.Utf8.decode max r.pending
    if d.1 ≠ [] then (.ok d.1, { r with pending := d.2 })
    else if r.ended then
      if r.pending = [] then (.ok [], r)
      else (.ok [Text.Utf8.replacement], { r with pending := [] })
    else
      match _h : Delivery.pull r.share r.deliveries with
      | (.error e, ds) => (.error e, { r with deliveries := ds })
      | (.ok [], ds) => read max { r with deliveries := ds, ended := true }
      | (.ok (b :: bs), ds) =>
        read max { r with deliveries := ds, pending := r.pending ++ b :: bs }
termination_by r.pulls
decreasing_by
  · simp only [pulls, ↓reduceIte]
    split
    · contradiction
    · omega
  · have hc := congrArg List.length (pull_content _h)
    simp only [List.length_append, List.length_cons] at hc
    simp only [pulls]
    split
    · contradiction
    · omega

theorem read_bound (max : Nat) (r : ByteReader) :
    (r.read max).2.bound + ((r.read max).1.toOption.getD []).length ≤ r.bound := by
  fun_induction read max r with
  | case1 => simp [Except.toOption]
  | case2 r h d hd =>
    have hl : d.1.length + d.2.length ≤ r.pending.length :=
      Text.Utf8.decode_length max r.pending
    simp only [bound, Except.toOption, Option.getD_some]
    omega
  | case3 => simp [Except.toOption]
  | case4 r h d hd he hp =>
    have : r.pending.length ≠ 0 := by simpa using hp
    simp only [bound, Except.toOption, Option.getD_some, List.length_nil, List.length_cons]
    omega
  | case5 r h d hd he e ds hp =>
    have hc := pull_error hp
    simp [bound, hc, Except.toOption]
  | case6 r h d hd he ds hp ih =>
    have hc := pull_content hp
    simp_all [bound]
  | case7 r h d hd he b bs ds hp ih =>
    have hc := congrArg List.length (pull_content hp)
    simp only [bound, List.length_append, List.length_cons] at ih hc ⊢
    omega

end ByteReader

namespace Source

def read (max : Nat) : Source → Except Error (List Char) × Source
  | text unread => (.ok (unread.take max), text (unread.drop max))
  | bytes reader => ((reader.read max).1, bytes (reader.read max).2)

def bound : Source → Nat
  | text unread => unread.length
  | bytes reader => reader.bound

theorem read_bound (max : Nat) (s : Source) :
    (s.read max).2.bound + ((s.read max).1.toOption.getD []).length ≤ s.bound := by
  cases s with
  | text unread => simp [read, bound, Except.toOption]; omega
  | bytes reader => exact reader.read_bound max

end Source

/-- What a reading leaves unread: characters already taken from the source, then the source. -/
structure Remainder where
  leftover : List Char := []
  offset : Nat := 0
  source : Source
  deriving DecidableEq, Repr

end Edi
