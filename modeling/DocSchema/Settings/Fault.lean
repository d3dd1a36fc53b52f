import DocSchema.Raw.Misuse
import DocSchema.Raw.Number

/-!
# Faults of settings

Why a setting is refused, and the checks that several settings share. A refusal shows the value that is
refused; one that cannot be shown is a fault of its own.

- `positive_ok`: an accepted size is a whole number above zero.
-/

namespace DocSchema

/-- Why settings are refused. -/
inductive SettingsFault
  | notPositive (name shown : String)
  | negative (name shown : String)
  | fraction (shown : String)
  | timeout (shown : String)
  | tooDeep (shown : String)
  | noIdentifierField
  /-- A value of the wrong kind. -/
  | misuse (m : Misuse)
  /-- A value that is refused and cannot be shown. -/
  | notShown (fault : Raw.ShowFault)
  | unknownName (name : String)
  deriving DecidableEq, Repr

namespace SettingsFault

/-- The message about a fault. -/
def message : SettingsFault → String
  | .notPositive name shown => name ++ " must be a positive integer, got " ++ shown
  | .negative name shown => name ++ " must be a non-negative integer, got " ++ shown
  | .fraction shown => "sampling.max_fraction must be a positive number, got " ++ shown
  | .timeout shown => "sampling.timeout_seconds must be a positive number, got " ++ shown
  | .tooDeep shown => "extraction.max_depth must be at most 200, got " ++ shown
  | .noIdentifierField => "extraction.identifier_field cannot be empty"
  | .misuse m => m.message
  | .notShown fault => fault.message
  | .unknownName name => "unexpected setting " ++ Text.quoted name

/-- Whether the fault is reported as one of the settings, rather than of the kind of a value or of its
text. -/
def isReported : SettingsFault → Bool
  | .misuse _ | .notShown _ | .unknownName _ => false
  | _ => true

/-- A fault that is told of a value as it is shown. -/
def showing [Stack] (r : Raw) (fault : String → SettingsFault) : SettingsFault :=
  match r.showFault? with
  | none => fault r.shown
  | some f => .notShown f

end SettingsFault

namespace Settings

/-- Values by the name of a setting. -/
abbrev Fields := List (String × Raw)

/-- The value of a setting, or the one that holds without it. -/
def value (fields : Fields) (name : String) (otherwise : Raw) : Raw :=
  (fields.lookup name).getD otherwise

/-- A size: a whole number above zero (`_require_positive_int`). -/
def positive [Stack] (name : String) (r : Raw) : Except SettingsFault Nat :=
  match r.int? with
  | some n => if 0 < n then .ok n.toNat else .error (.showing r (.notPositive name))
  | none => .error (.showing r (.notPositive name))

/-- A threshold: a whole number that is not negative (`_require_non_negative_int`). -/
def nonNegative [Stack] (name : String) (r : Raw) : Except SettingsFault Nat :=
  match r.int? with
  | some n => if 0 ≤ n then .ok n.toNat else .error (.showing r (.negative name))
  | none => .error (.showing r (.negative name))

/-- Refuses a name that is none of those known. -/
def checkNames (known : List String) (fields : Fields) : Except SettingsFault Unit :=
  match fields.find? fun (name, _) => !known.contains name with
  | some (name, _) => .error (.unknownName name)
  | none => .ok ()

theorem positive_ok [Stack] {name : String} {r : Raw} {n : Nat} (h : positive name r = .ok n) : 0 < n := by
  rw [positive] at h
  split at h
  · split at h
    · cases h
      omega
    · cases h
  · cases h

end Settings

end DocSchema
