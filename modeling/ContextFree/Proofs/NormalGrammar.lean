import ContextFree.NormalForm
import ContextFree.Proofs.Interpretation
import ContextFree.Proofs.WellFormed
import Mathlib.Data.List.Nodup

/-!
# Grammars in normal form

A grammar is read as one in Chomsky normal form if and only if all of its bodies are normal
(`Grammar.exists_ofGrammar_iff`), and reading does not change it
(`Grammar.WellFormed.ofGrammar_eq_ok_iff`). What a non-terminal of such a grammar generates is
settled by its bodies:

* a word of one symbol by a body that is this symbol (`Grammar.IsNormal.generates_singleton_iff`);
* a longer word by a pair, and by a cut of the word into two parts for the two members of the pair
  (`Grammar.IsNormal.generates_iff_of_two_le`).

The empty word is generated by nothing.
-/

namespace ContextFree

namespace NormalGrammar

variable {G : Grammar} {N : NormalGrammar}

/-! ### Reading -/

/-- The rule that a rule with bodies in normal form stands for. -/
def writeRule (rule : Rule NormalBody) : Rule Body :=
  ⟨rule.lhs, rule.bodies.map NormalBody.toBody⟩

/-- The body of a production in normal form, or the failure that names the production. -/
def readProduction (lhs : Name) (body : Body) : Except Failure NormalBody :=
  (NormalBody.ofBody body).mapError fun _ => .notNormal lhs body

theorem readProduction_eq_ok_iff {lhs : Name} {body : Body} {b : NormalBody} :
    readProduction lhs body = .ok b ↔ body = b.toBody :=
  mapError_eq_ok_iff.trans NormalBody.ofBody_eq_ok_iff

theorem exists_readProduction_iff {lhs : Name} {body : Body} :
    (∃ b, readProduction lhs body = .ok b) ↔ body.IsNormal := by
  rw [← NormalBody.exists_ofBody_iff]
  exact exists_congr fun b => mapError_eq_ok_iff

theorem readRule_eq (rule : Rule Body) :
    readRule rule = do
      let bodies ← rule.bodies.mapM (readProduction rule.lhs)
      return ⟨rule.lhs, bodies.eraseDups⟩ := rfl

/-- **No two bodies become the same when they are read**, so a rule that lists none twice is read as
it is. -/
theorem readRule_eq_ok_iff {rule : Rule Body} (distinct : rule.bodies.Nodup)
    {read : Rule NormalBody} : readRule rule = .ok read ↔ rule = writeRule read := by
  have all (bodies : List NormalBody) :
      rule.bodies.mapM (readProduction rule.lhs) = .ok bodies ↔
        rule.bodies = bodies.map NormalBody.toBody :=
    mapM_eq_ok_iff fun _ _ _ => readProduction_eq_ok_iff
  rw [readRule_eq]
  refine ⟨fun ok => ?_, ?_⟩
  · obtain ⟨bodies, hbodies, ok⟩ := exists_of_bind_eq_ok ok
    cases ok
    have same := (all bodies).mp hbodies
    rw [same] at distinct
    rw [writeRule, eraseDups_of_nodup (List.Nodup.of_map _ distinct), ← same]
  · rintro rfl
    have same : read.bodies.eraseDups = read.bodies :=
      eraseDups_of_nodup (List.Nodup.of_map _ distinct)
    have bodies := (all read.bodies).mpr rfl
    rw [bodies]
    show Except.ok (Rule.mk read.lhs read.bodies.eraseDups) = _
    rw [same]

/-- A rule can be read if its bodies are normal. -/
theorem exists_readRule_iff {rule : Rule Body} :
    (∃ read, readRule rule = .ok read) ↔ ∀ body ∈ rule.bodies, body.IsNormal := by
  have all : (∃ bodies, rule.bodies.mapM (readProduction rule.lhs) = .ok bodies) ↔
      ∀ body ∈ rule.bodies, body.IsNormal :=
    exists_mapM_eq_ok_iff.trans (forall₂_congr fun _ _ => exists_readProduction_iff)
  rw [readRule_eq, ← all]
  constructor
  · rintro ⟨_, ok⟩
    obtain ⟨bodies, read, -⟩ := exists_of_bind_eq_ok ok
    exact ⟨bodies, read⟩
  · rintro ⟨bodies, read⟩
    rw [read]
    exact ⟨_, rfl⟩

/-- A grammar is read part by part. -/
theorem ofGrammar_eq_ok_iff (distinct : ∀ rule ∈ G.rules, rule.bodies.Nodup) :
    ofGrammar G = .ok N ↔
      G.start = N.start ∧ G.terminals = N.terminals ∧ G.rules = N.toGrammar.rules := by
  have all (rules : List (Rule NormalBody)) :
      G.rules.mapM readRule = .ok rules ↔ G.rules = rules.map writeRule :=
    mapM_eq_ok_iff fun rule mem _ => readRule_eq_ok_iff (distinct rule mem)
  unfold ofGrammar
  refine ⟨fun ok => ?_, ?_⟩
  · obtain ⟨rules, hrules, ok⟩ := exists_of_bind_eq_ok ok
    cases ok
    exact ⟨rfl, rfl, (all rules).mp hrules⟩
  · rintro ⟨start, terminals, rules⟩
    rw [(all N.rules).mpr rules, start, terminals]
    rfl

end NormalGrammar

namespace Grammar

variable {G : Grammar} {N : NormalGrammar} {A : Name} {w : List Name}

open NormalGrammar

/-- **Reading a grammar does not change it.** -/
theorem WellFormed.ofGrammar_eq_ok_iff (wf : G.WellFormed) :
    ofGrammar G = .ok N ↔ N.toGrammar = G := by
  rw [NormalGrammar.ofGrammar_eq_ok_iff wf.bodies_nodup]
  refine ⟨?_, ?_⟩
  · rintro ⟨start, terminals, rules⟩
    -- the declared non-terminals are the left-hand sides, which the rules determine
    have nonterminals : N.toGrammar.nonterminals = G.nonterminals := by
      rw [← wf.leftSides_eq, leftSides, rules, toGrammar, List.map_map]
      rfl
    cases G
    cases start
    cases terminals
    cases nonterminals
    cases rules
    rfl
  · rintro rfl
    exact ⟨rfl, rfl, rfl⟩

theorem isNormal_toGrammar (N : NormalGrammar) : N.toGrammar.IsNormal := by
  intro rule hrule body hbody
  obtain ⟨_, _, rfl⟩ := List.mem_map.mp hrule
  obtain ⟨b, _, rfl⟩ := List.mem_map.mp hbody
  exact NormalBody.exists_ofBody_iff.mp ⟨b, NormalBody.ofBody_toBody b⟩

/-- **The grammars that can be read are those in normal form.** -/
theorem exists_ofGrammar_iff : (∃ N, ofGrammar G = .ok N) ↔ G.IsNormal := by
  have all : (∃ rules, G.rules.mapM readRule = .ok rules) ↔ G.IsNormal :=
    exists_mapM_eq_ok_iff.trans (forall₂_congr fun _ _ => exists_readRule_iff)
  rw [← all]
  constructor
  · rintro ⟨N, ok⟩
    obtain ⟨rules, read, -⟩ := exists_of_bind_eq_ok ok
    exact ⟨rules, read⟩
  · rintro ⟨rules, read⟩
    rw [ofGrammar, read]
    exact ⟨_, rfl⟩

/-! ### What a grammar in normal form generates -/

namespace IsNormal

variable (normal : G.IsNormal)
include normal

theorem of_mem_bodies {body : Body} (mem : body ∈ G.bodies A) : body.IsNormal := by
  obtain ⟨rule, hrule, _, hbody⟩ := exists_rule_of_mem_bodies mem
  exact normal rule hrule body hbody

/-- A word is generated by a body that is the word, or by a pair. -/
theorem generates_iff :
    G.Generates A w ↔ (∃ a, w = [a] ∧ [.terminal a] ∈ G.bodies A) ∨
      ∃ B C u v, [.nonterminal B, .nonterminal C] ∈ G.bodies A ∧
        w = u ++ v ∧ G.Generates B u ∧ G.Generates C v := by
  refine ⟨?_, ?_⟩
  · rintro ⟨body, mem, h⟩
    rcases normal.of_mem_bodies mem with ⟨a, rfl⟩ | ⟨B, C, rfl⟩
    · obtain ⟨v, rfl, hv⟩ := derives_terminal_iff.mp h
      rw [derives_nil_iff.mp hv]
      exact .inl ⟨a, rfl, mem⟩
    · obtain ⟨u, v, rfl, hu, hv⟩ := derives_nonterminal_iff.mp h
      exact .inr ⟨B, C, u, v, mem, rfl, hu, derives_single_iff.mp hv⟩
  · rintro (⟨a, rfl, mem⟩ | ⟨B, C, u, v, mem, rfl, hu, hv⟩)
    · exact ⟨_, mem, .terminal .nil⟩
    · have second : G.Derives [.nonterminal C] v := derives_single_iff.mpr hv
      exact ⟨_, mem, derives_nonterminal_iff.mpr ⟨u, v, rfl, hu, second⟩⟩

theorem nil_notMem_bodies (A : Name) : [] ∉ G.bodies A := by
  intro mem
  rcases normal.of_mem_bodies mem with ⟨a, eq⟩ | ⟨B, C, eq⟩ <;> cases eq

/-- A word of one symbol is generated by a body that is this symbol. -/
theorem generates_singleton_iff {a : Name} :
    G.Generates A [a] ↔ [.terminal a] ∈ G.bodies A := by
  rw [normal.generates_iff]
  refine ⟨?_, fun mem => .inl ⟨a, rfl, mem⟩⟩
  · rintro (⟨b, eq, mem⟩ | ⟨B, C, u, v, _, eq, hu, hv⟩)
    · cases eq
      exact mem
    · -- both parts have a symbol, which makes two
      have hu := List.length_pos_of_ne_nil (hu.ne_nil normal.nil_notMem_bodies)
      have hv := List.length_pos_of_ne_nil (hv.ne_nil normal.nil_notMem_bodies)
      have := congrArg List.length eq
      rw [List.length_singleton, List.length_append] at this
      omega

/-- A longer word is generated by a pair and a cut of the word. -/
theorem generates_iff_of_two_le (long : 2 ≤ w.length) :
    G.Generates A w ↔ ∃ B C, [.nonterminal B, .nonterminal C] ∈ G.bodies A ∧
      ∃ n, 0 < n ∧ n < w.length ∧ G.Generates B (w.take n) ∧ G.Generates C (w.drop n) := by
  rw [normal.generates_iff]
  refine ⟨?_, ?_⟩
  · rintro (⟨a, rfl, _⟩ | ⟨B, C, u, v, mem, rfl, hu, hv⟩)
    · exact absurd long (by simp)
    · have left := List.length_pos_of_ne_nil (hu.ne_nil normal.nil_notMem_bodies)
      have right := List.length_pos_of_ne_nil (hv.ne_nil normal.nil_notMem_bodies)
      -- the word is cut behind the part of the first non-terminal
      refine ⟨B, C, mem, u.length, left, ?_, ?_, ?_⟩
      · rw [List.length_append]
        exact Nat.lt_add_of_pos_right right
      · rw [List.take_left]
        exact hu
      · rw [List.drop_left]
        exact hv
  · rintro ⟨B, C, mem, n, _, _, hu, hv⟩
    exact .inr ⟨B, C, w.take n, w.drop n, mem, (List.take_append_drop n w).symm, hu, hv⟩

end IsNormal

end Grammar

end ContextFree
