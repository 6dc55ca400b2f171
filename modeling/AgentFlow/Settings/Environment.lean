import AgentFlow.Notice
import AgentFlow.Settings.Basic
import AgentFlow.Text.Digit
import AgentFlow.Text.Lowercase

/-!
# Settings from the environment

Every setting has an environment variable. Blanks around a value do not count, and a blank value is
no value. A value that cannot be read or is out of range is reported and ignored, so the settings
are always sound; only a templates folder below an unknown home is an error. The home folder is the
one that a variable names, or else the user's own.

Numbers may be written in the decimal digits of any script, with single underscores between digits.
-/

namespace AgentFlow

/-- What the settings are read from. -/
structure Environment where
  /-- The user's own home folder. -/
  home : Path
  /-- The variables by name. -/
  values : List (Text × Text)

/-! ## Numbers -/

/-- Drops the underscores between two digits; refuses any other underscore. -/
def joinDigits? : List Char → Option (List Char)
  | [] => some []
  | '_' :: _ => none
  | c :: '_' :: d :: cs =>
    if isAsciiDigit c ∧ isAsciiDigit d then (joinDigits? (d :: cs)).map (c :: ·) else none
  | c :: cs => (joinDigits? cs).map (c :: ·)

/-- The characters of a number in ASCII digits without underscores. -/
def plainDigits? (s : Text) : Option (List Char) := do joinDigits? ((← s.chars?).map asciiDigit)

/-- The whole number that a value writes, which has no more digits than are read. -/
def settingInteger? (s : Text) : Option Int := do
  let (negative, digits) := splitSign (← plainDigits? s)
  if digits.isEmpty ∨ !digits.all isAsciiDigit ∨ maxDigits < digits.length then none
  else some (if negative then -(digitsValue digits : Int) else digitsValue digits)

/-- The number that a value writes. -/
def settingNumber? (s : Text) : Option Binary64 := do readBinary64? (← plainDigits? s)

/-! ## Variables -/

namespace Environment

/-- The variable of the threshold for large workflows. -/
def largeWorkflowThreshold : String := "AGENCY_BUILDER_LARGE_WORKFLOW_THRESHOLD"

/-- The variable of the time of one agent. -/
def secondsPerAgent : String := "AGENCY_BUILDER_AVG_SECONDS_PER_AGENT"

/-- The variable of the parallel factor. -/
def parallelFactor : String := "AGENCY_BUILDER_PARALLEL_FACTOR"

/-- The variable of the folder of saved templates. -/
def templatesFolder : String := "AGENCY_BUILDER_TEMPLATES_DIR"

/-- The variable of the home folder. -/
def homeFolder : String := "HOME"

/-- The variable that asks for sound principals. -/
def strictPrincipals : String := "AGENCY_BUILDER_STRICT_PRINCIPALS"

/-- The value of a variable without blanks at its ends. -/
def value? (env : Environment) (name : String) : Option Text :=
  (List.lookup (name : Text) env.values).map strip

/-- The value of a variable that is not blank. -/
def text? (env : Environment) (name : String) : Option Text :=
  (env.value? name).filter (· ≠ "")

/-- The whole number that a variable sets, at least zero. -/
def natural (env : Environment) (name : String) (default : Nat) : Noted Nat :=
  match env.text? name with
  | none => pure default
  | some s =>
    match settingInteger? s with
    | none => ⟨default, [.settingNotInteger s name]⟩
    | some n => if n < 0 then ⟨default, [.settingOutOfRange s name "0"]⟩ else pure n.toNat

/-- The finite number that a variable sets, at least zero. -/
def number (env : Environment) (name : String) (default : Binary64) : Noted Binary64 :=
  match env.text? name with
  | none => pure default
  | some s =>
    match settingNumber? s with
    | none => ⟨default, [.settingNotNumeric s name]⟩
    | some x =>
      if x.isFinite ∧ x.isNonneg then pure x else ⟨default, [.settingOutOfRange s name "0.0"]⟩

/-- The truth value that a variable sets: true for four words in any case, else false. -/
def flag (env : Environment) (name : String) (default : Bool) : Bool :=
  match env.value? name with
  | none => default
  | some s => ["1", "true", "yes", "on"].any fun word ↦ lowercase s = Text.ofString word

/-- The home folder that is put for a leading `~`: the one that a variable names, taken without the
slashes at its end and whatever it is, unless it starts with a `~` itself. -/
def expandedHome (env : Environment) : Except Path.Fault Path :=
  match List.lookup (homeFolder : Text) env.values with
  | none => .ok env.home
  | some s =>
    let kept := (s.reverse.dropWhile (· = .char '/')).reverse
    if kept.head? = some (.char '~') then .error .homeUnknown
    else if kept.isEmpty then .ok (.ofText "/")
    else .ok (.ofText kept)

/-- The folder that a variable sets, which may start at the home folder. -/
def folder (env : Environment) (name : String) (default : Path) : Except Path.Fault Path :=
  match env.text? name with
  | none => .ok default
  | some s => (Path.ofText s).expandHome env.expandedHome

/-- The settings of an environment. -/
def settings (env : Environment) : Noted (Except Path.Fault Settings) := do
  let defaults := Settings.defaults env.home
  let threshold ← env.natural largeWorkflowThreshold defaults.largeWorkflowThreshold
  let seconds ← env.number secondsPerAgent defaults.secondsPerAgent
  let factor ← env.number parallelFactor defaults.parallelFactor
  pure ((env.folder templatesFolder defaults.templatesFolder).map fun folder ↦
    ⟨threshold, seconds, factor, folder, env.flag strictPrincipals defaults.strictPrincipals⟩)

end Environment

end AgentFlow
