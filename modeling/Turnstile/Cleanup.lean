import Std.Data.TreeMap
import Turnstile.Fault
import Turnstile.Journal

/-!
# Cleanup

The cleaners that one request registers. A cleaner is started at most once: early through its
handle, or by the final sweep, which goes from the newest to the oldest. While it runs it may
leave notes, break off, and invoke any cleaner, itself included.

A cleaner is no longer waiting from the moment it is started, before it does anything. So a nested
invocation always meets one waiting cleaner fewer, and `fire` needs no more depth than cleaners
wait: at depth zero none is left, and firing does nothing.
-/

namespace Turnstile

/-- What a cleaner does once it is started. Cleaners are named by the order of registration. -/
inductive Cleaner (N : Type) where
  /-- Nothing more. -/
  | done
  /-- Leave a note, then go on. -/
  | note (n : N) (next : Cleaner N)
  /-- Break off. -/
  | fail (fault : Fault)
  /-- Invoke the cleaner `id` and go on with whether that started it. A fault of that cleaner is
  one of this cleaner too. -/
  | invoke (id : Nat) (next : Bool → Cleaner N)

instance {N : Type} : Inhabited (Cleaner N) := ⟨.done⟩

namespace Cleanup

/-- Something that happened to the cleaners. -/
inductive Event (N : Type) where
  /-- The cleaner was started. -/
  | started (id : Nat)
  /-- A cleaner left a note. -/
  | note (n : N)
  /-- The sweep found that the cleaner broke off. -/
  | failed (id : Nat) (fault : Fault)
  deriving DecidableEq

end Cleanup

/-- The cleaners of one request. -/
structure Cleanup (N : Type) where
  /-- How many cleaners were registered. -/
  size : Nat
  /-- The cleaners that have not been started. -/
  waiting : Std.TreeMap Nat (Cleaner N)
  /-- Whoever waits was registered. -/
  lt_size : ∀ {id : Nat}, id ∈ waiting → id < size
  /-- The final sweep has begun. -/
  swept : Bool
  /-- All that happened so far. -/
  history : Journal (Cleanup.Event N)

namespace Cleanup

variable {N : Type}

/-- No cleaners. -/
def empty : Cleanup N := ⟨0, ∅, fun h ↦ absurd h Std.TreeMap.not_mem_emptyc, false, .empty⟩

instance : Inhabited (Cleanup N) := ⟨empty⟩

/-- Add a cleaner as the newest. Its name is the number of cleaners before it. -/
def register (c : Cleanup N) (action : Cleaner N) : Cleanup N :=
  { c with
    size := c.size + 1
    waiting := c.waiting.insert c.size action
    lt_size := fun h ↦ by
      rw [Std.TreeMap.mem_insert, Nat.compare_eq_eq] at h
      have := @c.lt_size
      grind }

/-- Add `count` cleaners that do nothing. -/
def registerIdle : Nat → Cleanup N → Cleanup N
  | 0, c => c
  | count + 1, c => registerIdle count (c.register .done)

/-- The cleaner has been started. -/
def isStarted (c : Cleanup N) (id : Nat) : Bool := id < c.size && !c.waiting.contains id

/-- How many cleaners wait. -/
def pending (c : Cleanup N) : Nat := c.waiting.size

/-- Write an event into the history. -/
def log (c : Cleanup N) (event : Event N) : Cleanup N :=
  { c with history := c.history.push event }

/-- The cleaners that wait but for one. -/
def without (c : Cleanup N) (id : Nat) : Cleanup N :=
  { c with
    waiting := c.waiting.erase id
    lt_size := fun h ↦ c.lt_size (Std.TreeMap.mem_of_mem_erase h) }

/-- Give what a cleaner does and let it wait no longer, unless it was started before. -/
def start (c : Cleanup N) (id : Nat) : Option (Cleaner N) × Cleanup N :=
  match c.waiting[id]? with
  | some action => (some action, (c.without id).log (.started id))
  | none => (none, c)

/-- Run what is left of a cleaner, with `fire` for the cleaners that it invokes. -/
def perform (fire : Nat → Cleanup N → Except Fault Bool × Cleanup N) :
    Cleaner N → Cleanup N → Except Fault Unit × Cleanup N
  | .done, c => (.ok (), c)
  | .note n next, c => perform fire next (c.log (.note n))
  | .fail fault, c => (.error fault, c)
  | .invoke id next, c =>
    match fire id c with
    | (.ok started, c) => perform fire (next started) c
    | (.error fault, c) => (.error fault, c)

/-- Start a cleaner, unless it was started before, with at most `depth` cleaners running inside
one another. Says whether it was started. -/
def fire : Nat → Nat → Cleanup N → Except Fault Bool × Cleanup N
  | 0, _, c => (.ok false, c)
  | depth + 1, id, c =>
    match c.start id with
    | (none, c) => (.ok false, c)
    | (some action, c) =>
      match perform (fire depth) action c with
      | (.ok (), c) => (.ok true, c)
      | (.error fault, c) => (.error fault, c)

/-- Start a cleaner through its handle. -/
def invoke (c : Cleanup N) (id : Nat) : Except Fault Bool × Cleanup N := fire c.pending id c

/-- Start the cleaners below `id` from the newest to the oldest and count those that end well. -/
def sweepBelow (depth : Nat) : Nat → Nat → Cleanup N → Nat × Cleanup N
  | 0, ran, c => (ran, c)
  | id + 1, ran, c =>
    match fire depth id c with
    | (.ok true, c) => sweepBelow depth id (ran + 1) c
    | (.ok false, c) => sweepBelow depth id ran c
    | (.error fault, c) => sweepBelow depth id ran (c.log (.failed id fault))

/-- The final sweep. Only the first one does anything; it says how many cleaners it started that
ended well. -/
def sweep (c : Cleanup N) : Nat × Cleanup N :=
  if c.swept then (0, c)
  else sweepBelow c.pending c.size 0 { c with swept := true }

/-- A handle as text. -/
def inspectHandle (started : Bool) : String :=
  "CleanerHandle \x7b dropped: " ++ (if started then "true" else "false") ++ " \x7d"

end Cleanup

end Turnstile
