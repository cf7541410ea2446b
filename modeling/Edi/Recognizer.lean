import Edi.Delimiters
import Edi.Error

namespace Edi

/-- What a recognizer makes of a character: it wants more, or it has an answer and the character
is taken with it or left unread. -/
inductive Verdict (σ α : Type)
  | more (state : σ)
  | take (answer : Except Error α)
  | leave (answer : Except Error α)

structure Recognizer (σ α : Type) where
  /-- The verdict on a character of a given class; the offset is the one after it. -/
  feed : σ → Nat → Char → CharClass → Verdict σ α
  finish : σ → Nat → Verdict Empty α

end Edi
