import ContingentPlan.CommandLine.Options

/-!
The values that options carry, and what a library for arguments is documented to do with the words of a
command line and with its environment.
-/

namespace ContingentPlan.CommandLine

structure Options.Carry (options : Options) (values : Setting → Option OsText) : Prop where
  configuration : options.configuration = values .configuration
  domain : some options.domain = values .domain
  plan : options.plan = values .plan
  output : options.output = values .output
  freeActionId : options.freeActionId = (values .freeActionId).bind fun value => value.text?.bind number?
  exportPath : options.exportPath = values .exportPath
  admissible : ∀ setting value, values setting = some value → isAdmissible setting value = true

def behind (environment : Table OsText OsText) (given : Setting → Option OsText) (setting : Setting) :
    Option OsText :=
  (given setting).or ((environmentName? setting).bind environment.find?)

def assignment (entry : Setting × OsText) : OsText where
  bytes := [0x2D, 0x2D] ++ entry.1.longName.bytes ++ 0x3D :: entry.2.bytes

/-- Any admissible values may be given together, if the environment has no bad ones and the domain is
among them all. -/
structure Combines (environment : Table OsText OsText) (values : Table Setting OsText) : Prop where
  admissible : ∀ entry ∈ values.entries, isAdmissible entry.1 entry.2 = true
  admissibleBehind : ∀ setting value, (environmentName? setting).bind environment.find? = some value →
    isAdmissible setting value = true
  named : (behind environment values.find? .domain).isSome

/-- What words give to the settings, options carry with the environment behind. Values that combine can
be given by one word each. -/
structure DocumentedArguments
    (arguments : Table OsText OsText → List OsText → Except Stop Options)
    (given : List OsText → Setting → Option OsText) : Prop where
  carry : ∀ environment words options, arguments environment words = .ok options →
    options.Carry (behind environment (given words))
  assign : ∀ environment (values : Table Setting OsText), Combines environment values →
    (∃ options, arguments environment (values.entries.map assignment) = .ok options) ∧
      given (values.entries.map assignment) = values.find?

end ContingentPlan.CommandLine
