import Edi.Proofs.Relocation

namespace Edi

variable (policy : Policy) (options : Options) (capacity : Nat) (retains : Bool)

theorem parseStream_of_agree {source source' : Source}
    (h : (⟨[], 0, source⟩ : Remainder).Agree ⟨[], 0, source'⟩) :
    parseStream policy options source =
      parseStream policy { options with bufferCapacity := capacity, retainsText := retains }
        source' := by
  obtain ⟨stop, hf⟩ := h.follows
  rw [parseStream_relocate options capacity retains (policy.relocates_zero []) hf,
    Reading.relocate_zero]

/-- What is read of a text does not depend on how its bytes arrive, how many are asked for at
once, how far ahead is read, or whether the text is kept. -/
theorem parseStream_delivered {text : String} {ds : List Delivery} {step : Option Nat}
    (hd : Delivers ds text) (hs : step ≠ some 0) (chunk : Nat) :
    parseStream policy { options with bufferCapacity := capacity, retainsText := retains }
        (.bytes (.ofDeliveries chunk step ds)) =
      parseStream policy options (.text text.toList) := by
  have h : (⟨[], 0, .text text.toList⟩ : Remainder).Agree
      ⟨[], 0, .bytes (.ofDeliveries chunk step ds)⟩ := by
    refine ⟨⟨text.toList, ⟨text.toList, rfl, rfl⟩, text.toList, hd.holds hs chunk, rfl⟩, rfl⟩
  exact (parseStream_of_agree policy options capacity retains h).symm

/-- An `É` is cut in two, with interruptions between its halves. -/
theorem parseStream_delivered_split :
    let text := "UNB+UNOC:3+CAFÉ+B+240101:1200+1'UNZ+0+1'"
    let ds : List Delivery :=
      [.interrupted, .bytes ("UNB+UNOC:3+CAF".toUTF8.data.toList ++ [0xC3]), .interrupted,
        .interrupted, .bytes [0x89], .bytes "+B+240101:1200+1'UNZ+0+1'".toUTF8.data.toList]
    Delivers ds text ∧ (some 2 : Option Nat) ≠ some 0 ∧
      parseStream .lenient { bufferCapacity := 1, retainsText := true }
          (.bytes (.ofDeliveries 1 (some 2) ds)) =
        parseStream .lenient {} (.text text.toList) := by
  intro text ds
  have hd : Delivers ds text := ⟨by decide, by decide⟩
  exact ⟨hd, by decide, parseStream_delivered .lenient {} 1 true hd (by decide) 1⟩

end Edi
