import ContingentPlan.Document.Basic

/-!
What is asked of a library for JSON or TOML. The library writes documents and reads them, and has a word
to say about a text that it or the reader of a form does not take.
-/

namespace ContingentPlan

structure Codec where
  compact : Document → Except String String
  pretty : Document → Except String String
  read : String → Except String Document
  mismatch : String → String

def Codec.readAs {α : Type} (codec : Codec) (form : Document → Option α) (text : String) :
    Except String α :=
  match codec.read text with
  | .error reason => .error reason
  | .ok document =>
      match form document with
      | some value => .ok value
      | none => .error (codec.mismatch text)

end ContingentPlan
