import ScriptBridge.Number.Printed

/-!
# Counters

What a context counts while it works, and the report of the counts.
-/

namespace ScriptBridge

/-- Counts of an identity cache. -/
structure CacheCounters where
  hits : Nat
  misses : Nat
  releases : Nat
deriving DecidableEq

namespace CacheCounters

def zero : CacheCounters := ⟨0, 0, 0⟩

/-- One more value whose live proxy was found. -/
def countHit (counters : CacheCounters) : CacheCounters := { counters with hits := counters.hits + 1 }

def countMiss (counters : CacheCounters) : CacheCounters := { counters with misses := counters.misses + 1 }

def countRelease (counters : CacheCounters) : CacheCounters :=
  { counters with releases := counters.releases + 1 }

end CacheCounters

/-- Counts of the binding work of a context. -/
structure BindingCounters where
  typesBound : Nat
  membersGenerated : Nat
  lazyMembersResolved : Nat
  overloadResolutions : Nat
  overloadFailures : Nat
deriving DecidableEq

namespace BindingCounters

def zero : BindingCounters := ⟨0, 0, 0, 0, 0⟩

def countType (counters : BindingCounters) : BindingCounters :=
  { counters with typesBound := counters.typesBound + 1 }

/-- One more member callable made while binding. -/
def countMember (counters : BindingCounters) : BindingCounters :=
  { counters with membersGenerated := counters.membersGenerated + 1 }

/-- One more member callable made at its first use. -/
def countLazyMember (counters : BindingCounters) : BindingCounters :=
  { counters with lazyMembersResolved := counters.lazyMembersResolved + 1 }

/-- One more choice among overloads, and one more failure if none matched. -/
def countResolution (counters : BindingCounters) (matched : Bool) : BindingCounters :=
  { counters with
    overloadResolutions := counters.overloadResolutions + 1
    overloadFailures := counters.overloadFailures + if matched then 0 else 1 }

end BindingCounters

/-- The counts of a context at one moment. -/
structure Statistics where
  binding : BindingCounters
  cache : CacheCounters
deriving DecidableEq

/-- A countable step of the work. -/
inductive Milestone where
  | typeBound
  | memberGenerated
  | lazyMemberResolved
  | overloadResolved
  | overloadFailed
  | cacheHit
  | cacheMiss
  | cacheRelease
deriving DecidableEq

namespace Milestone

def all : List Milestone :=
  [.typeBound, .memberGenerated, .lazyMemberResolved, .overloadResolved, .overloadFailed, .cacheHit,
    .cacheMiss, .cacheRelease]

def word : Milestone → String
  | .typeBound => "type_bound"
  | .memberGenerated => "member"
  | .lazyMemberResolved => "lazy"
  | .overloadResolved => "resolved"
  | .overloadFailed => "failed"
  | .cacheHit => "hit"
  | .cacheMiss => "miss"
  | .cacheRelease => "release"

def ofWord? (word : String) : Option Milestone := all.find? fun milestone => milestone.word == word

end Milestone

namespace Statistics

def zero : Statistics := ⟨.zero, .zero⟩

def record (statistics : Statistics) (milestone : Milestone) : Statistics :=
  let work := statistics.binding
  let cache := statistics.cache
  match milestone with
  | .typeBound => { statistics with binding := work.countType }
  | .memberGenerated => { statistics with binding := work.countMember }
  | .lazyMemberResolved => { statistics with binding := work.countLazyMember }
  | .overloadResolved => { statistics with binding := work.countResolution true }
  | .overloadFailed => { statistics with binding := work.countResolution false }
  | .cacheHit => { statistics with cache := cache.countHit }
  | .cacheMiss => { statistics with cache := cache.countMiss }
  | .cacheRelease => { statistics with cache := cache.countRelease }

/-- The share of hits among hits and misses; without any it is zero. -/
def hitRate (statistics : Statistics) : Binary64 :=
  let total := statistics.cache.hits + statistics.cache.misses
  if total = 0 then .zero else .ofQuotient statistics.cache.hits total

def counts (statistics : Statistics) : List (String × Nat) :=
  [ ("types_bound", statistics.binding.typesBound),
    ("members_generated", statistics.binding.membersGenerated),
    ("lazy_members_resolved", statistics.binding.lazyMembersResolved),
    ("overload_resolutions", statistics.binding.overloadResolutions),
    ("overload_failures", statistics.binding.overloadFailures),
    ("cache_hits", statistics.cache.hits),
    ("cache_misses", statistics.cache.misses),
    ("cache_releases", statistics.cache.releases) ]

/-- One line for each count; the hit rate is a percentage with two places. -/
def report (statistics : Statistics) : String :=
  let count (value : Nat) : String := padLeft 8 (natText value)
  let percentage := padLeft 6 ((statistics.hitRate.times 100).fixed 2)
  "Binding Statistics:\n" ++
  "  Types bound:            " ++ count statistics.binding.typesBound ++ "\n" ++
  "  Members generated:      " ++ count statistics.binding.membersGenerated ++ "\n" ++
  "  Lazy members resolved:  " ++ count statistics.binding.lazyMembersResolved ++ "\n" ++
  "  Overload resolutions:   " ++ count statistics.binding.overloadResolutions ++
    " (" ++ natText statistics.binding.overloadFailures ++ " failed)\n" ++
  "  Identity cache:         hits: " ++ count statistics.cache.hits ++
    ", misses: " ++ count statistics.cache.misses ++
    ", hit_rate: " ++ percentage ++ "%, released: " ++ count statistics.cache.releases ++ "\n"

end Statistics

end ScriptBridge
