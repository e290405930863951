import MiniPascal.Fault
import MiniPascal.Log
import MiniPascal.SymbolTable

/-!
# The state of a run

A run reads and changes the variables of a symbol table, appends to its **output**, and leaves a
**trace** in the log as far as its level of detail asks for it. It ends by itself, with a fault,
or because its fuel is used up. What it has done before a fault stays done.

* `MiniPascal.Machine`: variables, output and log.
* `MiniPascal.Run`: an action on a machine.
-/

namespace MiniPascal

/-- Variables, output and log of a run. -/
structure Machine where
  table : SymbolTable
  output : Array CodePoint
  log : Array Log.Entry
deriving Inhabited

/-- Why a run ends before its end. -/
inductive Stop
  | fault (f : Fault)
  /-- The fuel is used up. -/
  | exhausted
deriving DecidableEq

/-- An action on a machine. The machine outlives a stop. -/
abbrev Run := EStateM Stop Machine

namespace Run

/-- Stops with a fault. -/
def fail {α : Type} (f : Fault) : Run α := throw (.fault f)

/-- The result of an operation on values, or its fault. -/
def ofExcept {α : Type} : Except Fault α → Run α
  | .ok a => return a
  | .error f => fail f

/-- The value of a yield that has to be one, of which something is asked. -/
def valueOf (asked : Inquiry) (y : Yield) : Run Value :=
  match y.value? with
  | some v => return v
  | none => fail (.noValue asked y.typeName)

/-- Appends to the output. -/
def write (s : Text) : Run Unit := modify fun m => { m with output := m.output ++ s }

/-- What the variable of a key holds. -/
def load (key : Option Text) : Run Yield := do
  match key.bind (← get).table.get? with
  | some y => return y
  | none => fail .unbound

/-- Makes the variable of a key hold something new. -/
def store (key : Option Text) (y : Yield) : Run Unit :=
  match key with
  | some key => modify fun m => { m with table := m.table.store key y }
  | none => fail .unbound

/-- A text that has to be shown, which an overlong integer in it prevents. -/
def shown (text? : Option Text) : Run Text :=
  match text? with
  | some text => return text
  | none => fail (.number .overlong)

/-- Leaves a message in the log if the level of detail is at least the given one. A message that
would hold an overlong integer cannot be made, and one that is not asked for is not made. -/
def trace (level least : Int) (message? : Unit → Option Text) : Run Unit :=
  if level < least then return ()
  else
    match message? () with
    | some message => modify fun m => { m with log := m.log.push ⟨.debug, .executor, message⟩ }
    | none => fail (.number .overlong)

end Run

end MiniPascal
