import Mathlib.Data.List.Dedup
import Mathlib.Logic.Function.Basic

/-!
# State and command interfaces

`ros2_control` hands a component five maps of interface descriptions, for the joint, gpio and sensor
state interfaces and the joint and gpio command interfaces. A map is the list of its descriptions in
the order of iteration; a description occurs once in it. An interface is addressed by its
description, the pair that the full name `prefix/interface` is made of.
-/

namespace MyDiffbot.System

/-- `InterfaceDescription`: the component's name and the interface's. -/
structure InterfaceDescription where
  prefixName : String
  interfaceName : String
  deriving DecidableEq, Repr

/-- `ComponentInfo` of a joint, gpio or sensor. -/
structure ComponentInfo where
  name : String
  commandInterfaces : List String
  stateInterfaces : List String
  deriving DecidableEq, Repr

/-- The components that `HardwareInfo` lists. -/
structure HardwareInfo where
  joints : List ComponentInfo
  gpios : List ComponentInfo
  sensors : List ComponentInfo
  deriving DecidableEq, Repr

/-- A map of descriptions, as the list of its keys. -/
structure InterfaceMap where
  keys : List InterfaceDescription
  nodup : keys.Nodup

instance : Membership InterfaceDescription InterfaceMap where
  mem interfaces name := name ∈ interfaces.keys

instance (name : InterfaceDescription) (interfaces : InterfaceMap) :
    Decidable (name ∈ interfaces) :=
  inferInstanceAs (Decidable (name ∈ interfaces.keys))

/-- A description that is met again is not inserted again. -/
def InterfaceMap.ofList (names : List InterfaceDescription) : InterfaceMap where
  keys := names.dedup
  nodup := List.nodup_dedup names

def InterfaceMap.ofComponents (interfacesOf : ComponentInfo → List String)
    (components : List ComponentInfo) : InterfaceMap :=
  .ofList (components.flatMap fun component ↦
    (interfacesOf component).map fun interface ↦ ⟨component.name, interface⟩)

/-- The five maps of a component. -/
structure Interfaces where
  jointStates : InterfaceMap
  jointCommands : InterfaceMap
  gpioStates : InterfaceMap
  gpioCommands : InterfaceMap
  sensorStates : InterfaceMap

def Interfaces.ofInfo (info : HardwareInfo) : Interfaces where
  jointStates := .ofComponents ComponentInfo.stateInterfaces info.joints
  jointCommands := .ofComponents ComponentInfo.commandInterfaces info.joints
  gpioStates := .ofComponents ComponentInfo.stateInterfaces info.gpios
  gpioCommands := .ofComponents ComponentInfo.commandInterfaces info.gpios
  sensorStates := .ofComponents ComponentInfo.stateInterfaces info.sensors

/-! ## Values -/

/-- The values of some interfaces. -/
abbrev Store (α : Type) := InterfaceDescription → α

section setEach

variable {α : Type}

/-- A loop over a map that sets each interface it has a value for. -/
def setEach (interfaces : InterfaceMap) (value : InterfaceDescription → Option α)
    (store : Store α) : Store α :=
  interfaces.keys.foldl (fun store name ↦
    match value name with
    | some v => Function.update store name v
    | none => store) store

/-- After the loop, an interface of the map has the value it was given. -/
theorem setEach_apply (interfaces : InterfaceMap) (value : InterfaceDescription → Option α)
    (store : Store α) (name : InterfaceDescription) :
    setEach interfaces value store name =
      if name ∈ interfaces then (value name).getD (store name) else store name := by
  obtain ⟨names, hnodup⟩ := interfaces
  change _ = if name ∈ names then _ else _
  unfold setEach
  induction names generalizing store with
  | nil => rfl
  | cons first names ih =>
    obtain ⟨hfirst, hrest⟩ := List.nodup_cons.mp hnodup
    rw [List.foldl_cons, ih _ hrest]
    by_cases hname : name = first
    · subst hname
      rw [if_neg hfirst, if_pos List.mem_cons_self]
      cases value name with
      | none => rfl
      | some v => exact Function.update_self name v store
    · have hmem : name ∈ first :: names ↔ name ∈ names := by simp [hname]
      have hstore : (match value first with
          | some v => Function.update store first v
          | none => store) name = store name := by
        cases value first with
        | none => rfl
        | some v => exact Function.update_of_ne hname v store
      simp only [hmem, hstore]

end setEach

end MyDiffbot.System
