import ContingentPlan.CommandLine.Run
import ContingentPlan.CommandLine.Words
import ContingentPlan.Json.Reader
import ContingentPlan.Json.Writer
import ContingentPlan.Toml.Reader
import ContingentPlan.Toml.Writer

/-!
The libraries that come with the program.
-/

namespace ContingentPlan

def Json.codec : Codec where
  compact document := .ok (compact document)
  pretty document := .ok (pretty document)
  read text := (read? text).elim (.error "the text is no JSON") .ok
  mismatch _ := "a value has another form"

def Toml.codec : Codec where
  compact := write
  pretty := write
  read text := (read? text).elim (.error "the text is no TOML") .ok
  mismatch _ := "a value has another form"

def CommandLine.Libraries.builtIn : Libraries where
  json := Json.codec
  toml := Toml.codec
  arguments := Options.ofWords

end ContingentPlan
