import SyntaxSpans.Placement.Settle
import SyntaxSpans.Tree.Validation

/-!
# Setting the search window

The window comes from a configuration value, from an environment variable, or is the standard one.
-/

namespace SyntaxSpans

inductive Setting.Error where
  | notInteger (text : String)
  | tooLong (digits : Nat)
  | invalid (issues : List Issue)
deriving DecidableEq, Repr

/-- The error in words. Of a long text only the beginning is shown. -/
def Setting.Error.message : Setting.Error → String
  | .notInteger text =>
    "invalid literal for int() with base 10: " ++ String.ofList ((quoted text).toList.take 200)
  | .tooLong digits =>
    "Exceeds the limit (" ++ toString Integer.maxDigits
      ++ " digits) for integer string conversion: value has " ++ toString digits
      ++ " digits; use sys.set_int_max_str_digits() to increase the limit"
  | .invalid _ => "The search window is not valid."

namespace Window

def settingPath : List Issue.Step := [.key "search_window"]

def checked (n : Int) : Checked Window :=
  match ofInt? n with
  | some w => .ok w
  | none => Validation.fail .belowMinimum settingPath

def ofJson (j : Json) : Checked Window :=
  match Validation.integerAt settingPath j with
  | .ok n => checked n
  | .error issues => .error issues

/-- The window that an environment variable gives. A variable that is not set, or is blank, leaves
the standard one. -/
def ofEnvironment : Option String → Except Setting.Error Window
  | none => .ok standard
  | some text =>
    if text.toList.all CharSet.blank.contains then .ok standard
    else
      match Integer.ofSetting text.toList with
      | .error .malformed => .error (.notInteger text)
      | .error (.tooLong digits) => .error (.tooLong digits)
      | .ok n =>
        match checked n with
        | .ok w => .ok w
        | .error issues => .error (.invalid issues)

end Window

end SyntaxSpans
