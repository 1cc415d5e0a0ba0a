import ContextFree.Grammar.Basic

/-!
# Binary bodies

In binary form a body has at most two symbols, and if it has two, both are non-terminals. Fresh
non-terminals with one body each bring a grammar into that form, in two steps.

* **Isolating.** A terminal that stands in a body of two or more symbols is replaced by a fresh
  non-terminal whose only body is that terminal. There is one of them for each terminal, shared by
  all bodies.
* **Peeling.** A body of more than two symbols has its first two symbols replaced by a fresh
  non-terminal whose only body is that pair, again and again until two symbols are left.

Empty bodies and bodies of one symbol stay as they are.

This says what the binary form is when the fresh names are numbered from `k` on
(`Grammar.binaryForm`), without regard to how it is come by and whether those names are to be had.
-/

namespace ContextFree

namespace Body

/-- The terminals of a body, if it has two or more symbols. -/
def crowdedTerminals (body : Body) : List Name := if 2 ≤ body.length then body.terminals else []

/-- A body of two or more symbols with its terminals replaced by numbered non-terminals, the
number being `k` plus the place of the terminal among those to be isolated. -/
def isolate (k : Nat) (crowded : List Name) (body : Body) : Body :=
  if body.length < 2 then body
  else body.map fun
    | .terminal a => .nonterminal (.numbered (k + crowded.idxOf a))
    | .nonterminal A => .nonterminal A

/-- Peels a body that is given by its first two symbols and the others. Answers with the two
symbols that are left and the pairs that were replaced by numbered names, from `k` on. -/
def peelFrom (k : Nat) (first second : Symbol) : List Symbol → Body × List Body
  | [] => ([first, second], [])
  | third :: others =>
    let (left, pairs) := peelFrom (k + 1) (.nonterminal (.numbered k)) third others
    (left, [first, second] :: pairs)

def peel (k : Nat) : Body → Body × List Body
  | first :: second :: others => peelFrom k first second others
  | body => (body, [])

def peelAll (k : Nat) : List Body → List Body × List Body
  | [] => ([], [])
  | body :: bodies =>
    let (left, pairs) := peel k body
    let (others, more) := peelAll (k + pairs.length) bodies
    (left :: others, pairs ++ more)

/-- Peeling takes one fresh name for each symbol beyond the second. -/
theorem length_peelFrom_snd (k : Nat) (first second : Symbol) (others : List Symbol) :
    (peelFrom k first second others).2.length = others.length := by
  induction others generalizing k first second with
  | nil => rfl
  | cons third others ih => exact congrArg (· + 1) (ih ..)

end Body

namespace Grammar

/-- The terminals that stand in bodies of two or more symbols, in the order of first use. -/
def crowdedTerminals (G : Grammar) : List Name :=
  (G.rules.flatMap fun rule => rule.bodies.flatMap Body.crowdedTerminals).eraseDups

def isolatedRules (G : Grammar) (k : Nat) : List (Rule Body) :=
  G.rules.map fun rule => ⟨rule.lhs, rule.bodies.map (Body.isolate k G.crowdedTerminals)⟩

def peelRules (k : Nat) : List (Rule Body) → List (Rule Body) × List Body
  | [] => ([], [])
  | rule :: rules =>
    let (bodies, pairs) := Body.peelAll k rule.bodies
    let (others, more) := peelRules (k + pairs.length) rules
    (⟨rule.lhs, bodies⟩ :: others, pairs ++ more)

/-- The peeled rules and the pairs, when terminals are isolated with numbers from `k` on and
peeling takes the numbers after these. -/
def peeled (G : Grammar) (k : Nat) : List (Rule Body) × List Body :=
  peelRules (k + G.crowdedTerminals.length) (G.isolatedRules k)

/-- The bodies of the fresh non-terminals, in the order of their numbers. -/
def freshBodies (G : Grammar) (k : Nat) : List Body :=
  G.crowdedTerminals.map (fun a => [Symbol.terminal a]) ++ (G.peeled k).2

def freshRules (G : Grammar) (k : Nat) : List (Rule Body) :=
  ((G.freshBodies k).zipIdx k).map fun (body, n) => ⟨Name.numbered n, [body]⟩

/-- The grammar in binary form, with fresh non-terminals numbered from `k` on. -/
def binaryForm (G : Grammar) (k : Nat) : Grammar :=
  { G with
    nonterminals := G.nonterminals ++ (G.freshRules k).map (·.lhs)
    rules := (G.peeled k).1 ++ G.freshRules k }

end Grammar

end ContextFree
