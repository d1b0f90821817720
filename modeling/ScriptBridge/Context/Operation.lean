import ScriptBridge.Context.Calls

/-!
# Operations on a context

Everything that an embedder or a script can ask of a context, as data, and what
can be answered. A list of operations is a use of the context, so that what holds
in the course of any use can be said of such lists.
-/

namespace ScriptBridge

/-- Why an operation on a context failed. -/
inductive Failure where
  | bind (error : BindError)
  | script (error : ScriptError)
deriving DecidableEq

def Failure.kind : Failure → String
  | .bind error => error.kind
  | .script error => error.kind

def Failure.message : Failure → String
  | .bind error => error.message
  | .script error => error.message

/-- Something to ask of a context. -/
inductive Operation where
  /-- The table of a type, which is bound if it has to be. -/
  | bind (type : TypeRef)
  | bindWith (type : TypeRef) (access : MemberAccess) (mode : BindingMode)
  | ensureBound (type : TypeRef)
  | unbind (type : TypeRef)
  | showHidden (type : TypeRef)
  /-- The value at a dotted path from the root. -/
  | global (path : String)
  | index (target key : ScriptValue)
  | assign (target key value : ScriptValue)
  | call (function : ScriptValue) (arguments : List ScriptValue)
  | construct (function : ScriptValue) (arguments : List ScriptValue)
  | invokeMember (target : ScriptValue) (name : String) (arguments : List ScriptValue)
  | operate (operator : Operator) (left right : ScriptValue)
  | text (value : ScriptValue)
  /-- The script side lets go of a value. -/
  | release (value : ScriptValue)
  | push (value : HostValue)
  | toHost (value : ScriptValue) (type : TypeRef)
  | invokeDelegate (delegate : Delegate) (arguments : List HostValue)
  | resolveMember (member : PendingMember)
  | resolveOverload (group : OverloadGroup) (arguments : List ScriptValue)
  | register (callable : Callable)
  | createTable
  /-- Writes an entry past all rules of what its table stands for. -/
  | writeEntry (id : TableId) (name : String) (value : ScriptValue)

/-- What an operation answers. -/
inductive Answer where
  | done
  | truth (value : Bool)
  | text (value : String)
  | value (value : ScriptValue)
  | values (values : List ScriptValue)
  | host (value : HostValue)
  | candidate (candidate : Candidate)

namespace Host

variable (host : Host)

def answerBind {α : Type} (action : Bridge BindError α) (answer : α → Answer) : Bridge Failure Answer :=
  answer <$> ExceptT.adapt Failure.bind action

def answerScript {α : Type} (action : Bridge ScriptError α) (answer : α → Answer) :
    Bridge Failure Answer :=
  answer <$> ExceptT.adapt Failure.script action

def perform : Operation → Bridge Failure Answer
  | .bind type => answerBind (host.loadClass type) .value
  | .bindWith type access mode => answerBind (host.bindWith type access mode) fun id => .value (.table id)
  | .ensureBound type => answerBind (host.ensureBound type) fun _ => .done
  | .unbind type => answerBind (unbind type) .truth
  | .showHidden type => answerBind (host.showHidden type) fun _ => .done
  | .global path => answerScript (host.global path) .value
  | .index target key => answerScript (host.index target key) .value
  | .assign target key value => answerScript (host.assign target key value) fun _ => .done
  | .call function arguments => answerScript (host.call function arguments) .values
  | .construct function arguments => answerScript (host.construct function arguments) .values
  | .invokeMember target name arguments =>
      answerScript (host.invokeMember target name arguments) .values
  | .operate operator left right => answerScript (host.operate operator left right) .value
  | .text value => answerScript (host.text value) .text
  | .release value => answerScript (release value) .truth
  | .push value => answerBind (host.push value) .value
  | .toHost value type => answerScript (host.toHost value type) .host
  | .invokeDelegate delegate arguments => answerScript (host.invokeDelegate delegate arguments) .values
  | .resolveMember member =>
      answerScript (host.resolveMember member) fun handle => .value (.function handle)
  | .resolveOverload group arguments => answerScript (host.resolveOverload group arguments) .candidate
  | .register callable => answerBind (Bridge.register callable) fun handle => .value (.function handle)
  | .createTable => answerBind (Bridge.createTable .plain) fun id => .value (.table id)
  | .writeEntry id name value => do
      Bridge.writeEntry id name value
      return .truth ((← Bridge.context).heap.contains id)

end Host

end ScriptBridge
