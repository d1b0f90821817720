import ScriptBridge.Host.Assignable
import ScriptBridge.Host.Signature

/-!
# Overload groups

Methods that one call can choose from, and the ranks that decide the choice.
-/

namespace ScriptBridge

/-- How well an argument fits a parameter; an earlier tier is better. -/
inductive Tier where
  | exact
  | assignable
  | variadic
deriving DecidableEq

namespace Tier

def name : Tier → String
  | .exact => "Exact"
  | .assignable => "Assignable"
  | .variadic => "Variadic"

/-- The place of a tier in the order from best to worst. -/
def cost : Tier → Nat
  | .exact => 0
  | .assignable => 1
  | .variadic => 2

def worse (left right : Tier) : Tier := if left.cost < right.cost then right else left

/-- The worst of some tiers; of none it is the best tier. -/
def worst (tiers : List Tier) : Tier := tiers.foldl worse .exact

end Tier

/-- How the arguments of a script call line up with parameters. -/
inductive CallShape where
  /-- The first argument is the receiver. -/
  | onInstance
  | onType
  /-- The arguments are the parameters; the call makes the instance. -/
  | construction
deriving DecidableEq

def CallShape.word : CallShape → String
  | .onInstance => "instance"
  | .onType => "static"
  | .construction => "constructor"

def CallShape.ofWord? (word : String) : Option CallShape :=
  [.onInstance, .onType, .construction].find? fun shape => shape.word == word

/-- A method that a call can choose, with its generic parameters replaced. -/
structure Candidate where
  method : Method
  specialization : Specialization
  /-- The receiver is passed as the first parameter. -/
  isExtension : Bool
deriving DecidableEq

/-- The methods that one call can choose from. -/
structure OverloadGroup where
  owner : TypeRef
  name : String
  shape : CallShape
  candidates : List Candidate
deriving DecidableEq

namespace OverloadGroup

/-- The candidate that a method makes, unless it cannot be offered. -/
def candidate? (system : TypeSystem) (shape : CallShape) (method : Method) : Option Candidate :=
  if system.isSupported method.definition then
    method.definition.specialize.toOption.map fun specialization =>
      ⟨method, specialization, method.definition.isExtension && shape = .onInstance⟩
  else none

/-- The group of the methods that can be offered. -/
def ofMethods (system : TypeSystem) (owner : TypeRef) (name : String) (shape : CallShape)
    (methods : List Method) : OverloadGroup :=
  ⟨owner, name, shape, methods.filterMap (candidate? system shape)⟩

/-- The group of all methods of a type by one name; the constructors go by `.ctor`. -/
def named (system : TypeSystem) (owner : TypeRef) (name : String) (shape : CallShape) : OverloadGroup :=
  ofMethods system owner name shape
    (if name = ".ctor" then system.constructors owner
    else (system.methods owner).filter fun method => method.definition.name == name)

/-- The position of the first candidate of a method. -/
def position (group : OverloadGroup) (method : Method) : Nat :=
  group.candidates.findIdx fun candidate => candidate.method = method

def isEmpty (group : OverloadGroup) : Bool := group.candidates.isEmpty

def size (group : OverloadGroup) : Nat := group.candidates.length

/-- How many leading arguments are not passed to the parameters of a candidate. -/
def receiverCount (group : OverloadGroup) (candidate : Candidate) : Nat :=
  if group.shape = .onInstance && !candidate.isExtension then 1 else 0

end OverloadGroup

/-- The rank of a matching candidate: its worst tier, and how many tiers are not the best. -/
structure Rank where
  worst : Tier
  inexact : Nat
deriving DecidableEq

namespace Rank

/-- The rank of a candidate with the given tiers. -/
def ofTiers (tiers : List Tier) : Rank :=
  ⟨Tier.worst tiers, (tiers.filter (· ≠ .exact)).length⟩

/-- Whether a rank is strictly better: by its worst tier, then by the number of inexact tiers. -/
def better (left right : Rank) : Bool :=
  left.worst.cost < right.worst.cost ||
    (left.worst.cost = right.worst.cost && left.inexact < right.inexact)

end Rank

end ScriptBridge
