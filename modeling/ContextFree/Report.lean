import ContextFree.Failure

/-!
# Reports

A grammar is brought into another form in steps that say what they do. A **report** is the list
of events that a computation went through, together with its outcome; reports are chained so that
the events of a computation that fails are kept up to the point of failure.

The five **stages** of normalization are enumerated here as well, since some events name one.
-/

namespace ContextFree

inductive Stage where
  | eliminateEmpty
  | removeUnits
  | removeInaccessible
  | removeNonproductive
  | binarize
deriving DecidableEq

namespace Stage

/-- All stages, in the order in which they lead to Chomsky normal form. -/
def all : List Stage :=
  [eliminateEmpty, removeUnits, removeInaccessible, removeNonproductive, binarize]

def label : Stage → String
  | eliminateEmpty => "ε-production elimination"
  | removeUnits => "unit production removal"
  | removeInaccessible => "inaccessible symbol removal"
  | removeNonproductive => "non-productive symbol removal"
  | binarize => "binarization"

end Stage

/-- How much an event matters, from the gravest to the slightest. -/
inductive Level where
  | error
  | warn
  | info
  | debug
  | trace
deriving DecidableEq

namespace Level

/-- The graver the level, the smaller its rank. -/
def rank : Level → Nat
  | error => 1
  | warn => 2
  | info => 3
  | debug => 4
  | trace => 5

def label : Level → String
  | error => "ERROR"
  | warn => "WARN"
  | info => "INFO"
  | debug => "DEBUG"
  | trace => "TRACE"

end Level

/-- Something worth telling that happened on the way. -/
inductive Event where
  | read (nonterminals terminals : Nat) (start : Name)
  | normalizing (start : Name)
  /-- A closure came to rest after so many rounds that still added something. -/
  | stable (closure : Closure) (rounds : Nat)
  /-- The non-terminals that derive the empty word are about to be made optional. -/
  | eliminating (nullable : List Name)
  /-- The non-terminals that one of them reaches by unit productions. -/
  | unitChain (source : Name) (members : List Name)
  /-- Unit productions were removed; the numbers of bodies before and after. -/
  | unitsRemoved (before after : Nat)
  /-- Non-terminals that the start symbol does not reach are left out. -/
  | droppingInaccessible (names : List Name)
  /-- Non-terminals that derive no word are left out. -/
  | droppingNonproductive (names : List Name)
  | startNonproductive (start : Name)
  /-- A fresh non-terminal got its one body. -/
  | introducing (name : Name) (body : Body)
  | binarized (isolated fresh : Nat)
  | finished (stage : Stage) (nonterminals bodies : Nat)
deriving DecidableEq

namespace Event

def level : Event → Level
  | startNonproductive _ => .warn
  | normalizing _ => .info
  | stable .. | unitChain .. | introducing .. => .trace
  | _ => .debug

def text : Event → String
  | read nonterminals terminals start =>
    s!"read grammar with {nonterminals} non-terminals, {terminals} terminals, " ++
      s!"start symbol {start.text}"
  | normalizing start => s!"normalizing grammar with start symbol {start.text}"
  | stable closure rounds =>
    s!"{closure.label} closure stable after {rounds} changing rounds"
  | eliminating nullable => s!"eliminating ε-productions, nullable: \x7b{commaList nullable}\x7d"
  | unitChain source members =>
    s!"unit closure of {source.text}: \x7b{commaList members}\x7d"
  | unitsRemoved before after =>
    s!"removed unit productions: {before} bodies before, {after} after"
  | droppingInaccessible names => s!"removing inaccessible symbols: {commaList names}"
  | droppingNonproductive names => s!"removing non-productive symbols: {commaList names}"
  | startNonproductive start => s!"start symbol {start.text} derives no terminal string"
  | introducing name body => s!"introducing {name.text} → {body.text}"
  | binarized isolated fresh =>
    s!"binarized: {isolated} terminals isolated, {fresh} fresh non-terminals in total"
  | finished stage nonterminals bodies =>
    s!"after {stage.label}: {nonterminals} non-terminals, {bodies} productions"

end Event

/-- The events of a computation, in order, and how it ended. -/
structure Report (α : Type) where
  events : List Event
  outcome : Except Failure α

namespace Report

variable {α β : Type}

/-- The report of a computation that had nothing to tell. -/
def quiet (outcome : Except Failure α) : Report α := ⟨[], outcome⟩

def note (event : Event) : Report Unit := ⟨[event], .ok ()⟩

def notes (events : List Event) : Report Unit := ⟨events, .ok ()⟩

def fail (failure : Failure) : Report α := ⟨[], .error failure⟩

/-- One computation after the other. The second starts if the first succeeded; what the first
had to tell is kept in any case. -/
def andThen (first : Report α) (next : α → Report β) : Report β :=
  match first.outcome with
  | .ok a =>
    let second := next a
    ⟨first.events ++ second.events, second.outcome⟩
  | .error failure => ⟨first.events, .error failure⟩

instance : Monad Report where
  pure a := ⟨[], .ok a⟩
  bind := andThen

@[simp] theorem events_pure (a : α) : (pure a : Report α).events = [] := rfl

@[simp] theorem outcome_pure (a : α) : (pure a : Report α).outcome = .ok a := rfl

/-- The outcome of two computations in a row is the outcome of the second, if it starts. -/
@[simp] theorem outcome_bind (first : Report α) (next : α → Report β) :
    (first >>= next).outcome = first.outcome.bind fun a => (next a).outcome := by
  change (andThen first next).outcome = _
  unfold andThen
  cases first.outcome <;> rfl

end Report

end ContextFree
