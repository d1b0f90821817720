import ScriptBridge.Host.Value
import ScriptBridge.Script.Value

/-!
# Procedures of the embedder

What a function that the embedder supplies does when a script calls it, as a
tree of requests to the context: each node asks for one thing, and the answer
picks the subtree to go on with.
-/

namespace ScriptBridge

/--
What an embedder function asks for, step by step; the answer to each request
decides the next. A request that fails ends the function with that failure.
-/
inductive Procedure where
  | finish
  | fail (message : String)
  /-- Tells the embedder that a function was called and with what. -/
  | report (name : String) (arguments : List ScriptValue) (next : Procedure)
  | push (value : ScriptValue) (next : Procedure)
  | pushHost (value : HostValue) (next : Procedure)
  /-- Reads an argument as a value of a host type. -/
  | read (position : Nat) (type : TypeRef) (next : HostValue → Procedure)
  /-- Asks for the text of a host value. -/
  | describe (value : HostValue) (next : String → Procedure)
  | index (target key : ScriptValue) (next : ScriptValue → Procedure)
  | assign (target key value : ScriptValue) (next : Procedure)
  | call (function : ScriptValue) (arguments : List ScriptValue) (next : List ScriptValue → Procedure)
  | member (target : ScriptValue) (name : String) (arguments : List ScriptValue)
      (next : List ScriptValue → Procedure)
  | release (target : ScriptValue) (next : Bool → Procedure)

def Procedure.pushAll : List ScriptValue → Procedure
  | [] => .finish
  | value :: rest => .push value (pushAll rest)

/--
What an embedder function does with the arguments of its call. Arguments that
the call does not have are nil.
-/
inductive EmbedderAction where
  | nothing
  /-- Gives back the arguments. -/
  | echo
  /-- Gives back fixed host values. -/
  | give (values : List HostValue)
  | fail (message : String)
  /-- Reads an argument as a host type, and gives back its text and the value. -/
  | readBack (position : Nat) (type : TypeRef)
  /-- Reads a key of the first argument. -/
  | index
  /-- Writes a key of the first argument. -/
  | assign
  /-- Calls the first argument with the others. -/
  | call
  /-- Calls the member of the first argument that the second one names. -/
  | callMember
  /-- Lets go of the first argument, and gives back whether it was live. -/
  | release

namespace EmbedderAction

/-- The action of a word, among the actions without parts. -/
def ofWord? : String → Option EmbedderAction
  | "log" => some .nothing
  | "echo" => some .echo
  | "index" => some .index
  | "set" => some .assign
  | "call" => some .call
  | "member" => some .callMember
  | "gc" => some .release
  | _ => none

/-- The requests of an action for the arguments of a call. -/
def requests (arguments : List ScriptValue) : EmbedderAction → Procedure
  | .nothing => .finish
  | .echo => .pushAll arguments
  | .give values => values.foldr Procedure.pushHost .finish
  | .fail message => .fail message
  | .readBack position type =>
      .read position type fun value =>
        .describe value fun text => .push (.string text) (.pushHost value .finish)
  | .index =>
      .index (arguments.getD 0 .nil) (arguments.getD 1 .nil) fun value => .push value .finish
  | .assign =>
      .assign (arguments.getD 0 .nil) (arguments.getD 1 .nil) (arguments.getD 2 .nil) .finish
  | .call => .call (arguments.getD 0 .nil) (arguments.drop 1) Procedure.pushAll
  | .callMember =>
      .member (arguments.getD 0 .nil) ((arguments.getD 1 .nil).asString?.getD "") (arguments.drop 2)
        Procedure.pushAll
  | .release => .release (arguments.getD 0 .nil) fun released => .push (.boolean released) .finish

/-- The procedure of a named function with an action: it reports its call first. -/
def procedure (action : EmbedderAction) (name : String) (arguments : List ScriptValue) : Procedure :=
  .report name arguments (action.requests arguments)

end EmbedderAction

end ScriptBridge
