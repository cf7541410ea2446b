import Edi.Token

namespace Edi

namespace Token

def simpleValue (token : Token) : Except Error (Option String) :=
  match token.content with
  | .value (.simple text) => .ok (some text)
  | .value (.composite _) =>
    .error (.malformedSegment token.span.start
      "composite element where a simple value was expected")
  | _ => .ok none

def compositeElement (token : Token) : Except Error (Option (List (List String))) :=
  match token.content with
  | .value (.simple text) => .ok (some [[text]])
  | .value (.composite parts) => .ok (some parts)
  | _ => .ok none

end Token

namespace Scanner

theorem simpleValue_eq (t : Scanner) :
    t.simpleValue = (t.token.1.bind Token.simpleValue, t.token.2) := by
  rcases ht : t.token with ⟨e | ⟨content, span, repeats⟩, u⟩
  · simp only [simpleValue, ht]
    rfl
  · simp only [simpleValue, ht]
    rcases content with (text | parts) | _ | _
    all_goals rfl

theorem compositeElement_eq (t : Scanner) :
    t.compositeElement = (t.token.1.bind Token.compositeElement, t.token.2) := by
  rcases ht : t.token with ⟨e | ⟨content, span, repeats⟩, u⟩
  · simp only [compositeElement, ht]
    rfl
  · simp only [compositeElement, ht]
    rcases content with (text | parts) | _ | _
    all_goals rfl

end Scanner

end Edi
