import ScriptBridge.Host.Member
import ScriptBridge.Text.Blank

/-!
# Configuration of a context

Which members a context binds and when, and how the configuration is read from
named variables.
-/

namespace ScriptBridge

/-- When the callable of a member is made: with the type, or at the first use of the member. -/
inductive BindingMode where
  | eager
  | lazy
deriving DecidableEq

def BindingMode.word : BindingMode → String
  | .eager => "eager"
  | .lazy => "lazy"

def BindingMode.ofWord? (word : String) : Option BindingMode :=
  [.eager, .lazy].find? fun mode => mode.word == word

/-- The choices of one context. -/
structure Config where
  mode : BindingMode
  access : MemberAccess
  /-- Binding a type also binds its visible nested types. -/
  bindsNested : Bool
  /-- Extension methods join the methods of the types they extend. -/
  mergesExtensions : Bool
deriving DecidableEq

namespace Config

/-- Eager, visible members only, with nested types and extension methods. -/
def standard : Config := ⟨.eager, .visibleOnly, true, true⟩

/-- The same choices with members made at first use. -/
def onDemand (config : Config) : Config := { config with mode := .lazy }

/-- The truth value of a switch; blanks around it and the case of letters do not matter. -/
def switch? (text : String) : Option Bool :=
  let word := Text.normalized text
  if ["1", "true", "yes", "on"].contains word then some true
  else if ["0", "false", "no", "off"].contains word then some false
  else none

/-- The binding mode of a text; blanks around it and the case of letters do not matter. -/
def mode? (text : String) : Option BindingMode := BindingMode.ofWord? (Text.normalized text)

/-- The configuration that named variables describe; missing and unknown values choose the standard. -/
def ofVariables (valueOf? : String → Option String) : Config where
  mode := ((valueOf? "HOSTLUA_BINDING_MODE").bind mode?).getD standard.mode
  access :=
    if (valueOf? "HOSTLUA_PRIVATE_ACCESS").bind switch? = some true then .all else standard.access
  bindsNested := ((valueOf? "HOSTLUA_BIND_NESTED").bind switch?).getD standard.bindsNested
  mergesExtensions := standard.mergesExtensions

end Config

end ScriptBridge
