import Edi.Proofs.Text.Utf8
import Edi.Source

namespace Edi

open Text.Utf8

/-- Neither a failure nor a delivery of no bytes, which would be taken for the end. -/
def Delivery.isSteady : Delivery → Bool
  | .bytes bs => !bs.isEmpty
  | .interrupted => true
  | .failure _ => false

theorem Delivery.pull_steady {share : Nat} {ds : List Delivery} (hs : 0 < share)
    (hd : ds.all isSteady) : ∃ bs rest, pull share ds = (.ok bs, rest) ∧ rest.all isSteady ∧
      (bs = [] → rest = []) := by
  induction ds with
  | nil => exact ⟨[], [], rfl, rfl, fun _ ↦ rfl⟩
  | cons d ds ih =>
    simp only [List.all_cons, Bool.and_eq_true] at hd
    cases d with
    | interrupted => exact ih hd.2
    | failure m => simp [isSteady] at hd
    | bytes bs =>
      have hne : bs ≠ [] := by simpa [isSteady] using hd.1
      have ht : bs.take share ≠ [] := by simp [hne, Nat.ne_of_gt hs]
      refine ⟨bs.take share, _, rfl, ?_, fun h ↦ absurd h ht⟩
      split
      · exact hd.2
      · next hl =>
        simp only [List.all_cons, Bool.and_eq_true]
        exact ⟨by simpa [isSteady] using hl, hd.2⟩

namespace ByteReader

structure Holds (r : ByteReader) (cs : List Char) : Prop where
  bytes : r.pending ++ Delivery.content r.deliveries = encode cs
  share : 0 < r.share
  steady : r.deliveries.all Delivery.isSteady
  ended : r.ended → Delivery.content r.deliveries = []

variable {r : ByteReader} {cs : List Char} {max : Nat}

theorem Holds.read (hm : max ≠ 0) (h : r.Holds cs) :
    ∃ k ≤ cs.length, (r.read max).1 = .ok (cs.take k) ∧ (r.read max).2.Holds (cs.drop k) ∧
      (cs ≠ [] → k ≠ 0) := by
  fun_induction ByteReader.read max r with
  | case1 => contradiction
  | case2 r hm d hd =>
    obtain ⟨k, -, ht, hl, hr, -⟩ := decode_of_append_eq h.bytes max
    refine ⟨k, hl, congrArg Except.ok ht, ⟨hr, h.share, h.steady, h.ended⟩, ?_⟩
    rintro - rfl
    exact hd ht
  | case3 r hm d hd he hp =>
    have hcs : cs = [] := by
      rw [← encode_eq_nil, ← h.bytes, hp, h.ended he]
      rfl
    subst hcs
    exact ⟨0, Nat.zero_le _, rfl, h, fun hn ↦ absurd rfl hn⟩
  | case4 r hm d hd he hp =>
    have hb := h.bytes
    rw [h.ended he, List.append_nil] at hb
    cases cs with
    | nil => exact absurd hb hp
    | cons c cs =>
      rw [encode_cons] at hb
      have hn : (decode max r.pending).1 ≠ [] := by
        cases max with
        | zero => contradiction
        | succ max => simp [decode, hb, next?_encodeChar]
      exact absurd hn hd
  | case5 r hm d hd he e ds hp =>
    obtain ⟨bs, rest, hq, -, -⟩ := Delivery.pull_steady h.share h.steady
    rw [hp] at hq
    simp at hq
  | case6 r hm d hd he ds hp ih =>
    obtain ⟨bs, rest, hq, hs, hn⟩ := Delivery.pull_steady h.share h.steady
    rw [hp] at hq
    obtain ⟨hbs, rfl⟩ := Prod.mk.inj hq
    obtain rfl := hn (Except.ok.inj hbs).symm
    refine ih ⟨?_, h.share, rfl, fun _ ↦ rfl⟩
    rw [← h.bytes, pull_content hp]
    rfl
  | case7 r hm d hd he b bs ds hp ih =>
    obtain ⟨_, rest, hq, hs, -⟩ := Delivery.pull_steady h.share h.steady
    rw [hp] at hq
    obtain ⟨-, rfl⟩ := Prod.mk.inj hq
    refine ih ⟨?_, h.share, hs, fun hn ↦ absurd hn he⟩
    rw [← h.bytes, pull_content hp, List.append_assoc]

end ByteReader

namespace Source

def Holds : Source → List Char → Prop
  | text unread, cs => unread = cs
  | bytes reader, cs => reader.Holds cs

theorem Holds.unique {s : Source} {cs ds : List Char} (h : s.Holds cs) (h' : s.Holds ds) :
    cs = ds := by
  cases s with
  | text unread => exact (show unread = cs from h).symm.trans h'
  | bytes reader => exact encode_injective (h.bytes.symm.trans h'.bytes)

theorem Holds.read {s : Source} {cs : List Char} {max : Nat} (hm : max ≠ 0) (h : s.Holds cs) :
    ∃ k ≤ cs.length, (s.read max).1 = .ok (cs.take k) ∧ (s.read max).2.Holds (cs.drop k) ∧
      (cs ≠ [] → k ≠ 0) := by
  cases s with
  | bytes reader => exact ByteReader.Holds.read hm h
  | text unread =>
    obtain rfl : unread = cs := h
    refine ⟨min max unread.length, Nat.min_le_right _ _, ?_, ?_, ?_⟩
    · simp [Source.read]
    · simp [Source.read, Holds]
    · intro hn
      have hl : unread.length ≠ 0 := by simpa using hn
      omega

/-- A way to tell the characters still to come from a source, which every read bears out. -/
structure Forecast (p : Source → List Char → Prop) : Prop where
  read {s : Source} {cs : List Char} {max : Nat} : max ≠ 0 → p s cs →
    ∃ k ≤ cs.length, (s.read max).1 = .ok (cs.take k) ∧ p (s.read max).2 (cs.drop k) ∧
      (cs ≠ [] → k ≠ 0)

theorem holds_forecast : Forecast Holds := ⟨Holds.read⟩

end Source

/-- The deliveries bring the UTF-8 bytes of a text, at any pace and cut anywhere, with any number
of interruptions. -/
structure Delivers (ds : List Delivery) (text : String) : Prop where
  bytes : Delivery.content ds = text.toUTF8.data.toList
  steady : ds.all Delivery.isSteady

theorem Delivers.holds {ds : List Delivery} {text : String} {step : Option Nat}
    (h : Delivers ds text) (hs : step ≠ some 0) (chunk : Nat) :
    (Source.bytes (.ofDeliveries chunk step ds)).Holds text.toList := by
  have hb : text.toUTF8.data.toList = encode text.toList := by
    rw [String.toUTF8_eq_toByteArray, ← String.utf8Encode_toList, List.utf8Encode,
      List.toList_data_toByteArray]
    rfl
  refine ⟨?_, ?_, h.steady, by simp [ByteReader.ofDeliveries]⟩
  · rw [← hb, ← h.bytes]
    rfl
  · cases step with
    | none => simp [ByteReader.ofDeliveries]
    | some n =>
      have hn : n ≠ 0 := fun hn ↦ hs (congrArg some hn)
      exact Nat.lt_min.2 ⟨Nat.pos_of_ne_zero hn, by omega⟩

end Edi
