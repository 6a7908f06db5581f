import MqttFieldBridge.Console.Typed
import MqttFieldBridge.Json.Raw
import Mathlib.Data.List.Perm.Subperm

/-! # What can be typed in

A `Target` is a configuration whose strings are single words and whose ports and flags a line can
spell. `script` is a list of lines that sets it: the fallback port must differ from the other two
ports after every line, so it is parked on a free port (`freePort`) while they change. From every
state with valid settings each line of the script returns 0, and what is left in memory and in flash
is the target; the settings for which the console has no command stay as they were. -/

namespace MqttFieldBridge.Console

open MqttFieldBridge.CLib MqttFieldBridge.Config MqttFieldBridge.Runtime
open MqttFieldBridge.Json (length_decimal_le)

/-! ### Lines of words -/

/-- What a line carries as one argument. -/
structure Word (t : Text) : Prop where
  nonempty : t ≠ []
  plain : ∀ c ∈ t, isDelimiter c = false ∧ c ≠ 0

/-- A line: its words with blanks between them. -/
def lineOf : List Text → Text
  | [] => []
  | [t] => t
  | t :: ts => t ++ 32 :: lineOf ts

variable {t : Text} {ts : List Text}

theorem Word.zero_notMem (h : Word t) : (0 : Byte) ∉ t := fun h0 => (h.plain 0 h0).2 rfl

@[simp] theorem nextToken_nil : nextToken (lineOf []) = (none, []) := rfl

variable {w : World} {g : Target} {s : FieldBridgeSettings}

/-- In every menu the line asks for this edit. -/
def Asks (w : World) (line : Text) (edit : FieldBridgeSettings → FieldBridgeSettings) : Prop :=
  ∀ m, ∃ cmd, lineRequest w.longBits m (cstr line) = .settings cmd ∧ ∀ s, cmd.edit s = edit s

end MqttFieldBridge.Console
