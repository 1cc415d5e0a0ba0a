import ContextFree.Derivation
import Mathlib.Logic.Relation

/-!
# Derivations as rewriting

`Grammar.Derives` describes derivation trees. The same words are reached by rewriting: starting
from the body, some occurrence of a non-terminal is replaced by one of the bodies of the
non-terminal, again and again, until there are terminals only (`Grammar.derives_iff_rewrites`).
-/

namespace ContextFree

namespace Grammar

open Relation

variable {G : Grammar} {body left right : Body} {A : Name} {w : List Name}

/-- One occurrence of a non-terminal is replaced by one of its bodies. -/
inductive Rewrites (G : Grammar) : Body → Body → Prop where
  | replace {left right : Body} {A : Name} {body : Body} : body ∈ G.bodies A →
      Rewrites G (left ++ .nonterminal A :: right) (left ++ (body ++ right))

theorem Rewrites.append (before later : Body) (h : G.Rewrites left right) :
    G.Rewrites (before ++ (left ++ later)) (before ++ (right ++ later)) := by
  cases h with
  | @replace left right A body mem =>
    have step := @replace G (before ++ left) (right ++ later) A body mem
    simpa only [List.append_assoc, List.cons_append] using step

/-- What happens in a part of a body happens in the whole of it. -/
theorem rewrites_append (before later : Body) (h : ReflTransGen G.Rewrites left right) :
    ReflTransGen G.Rewrites (before ++ (left ++ later)) (before ++ (right ++ later)) :=
  h.lift (fun part => before ++ (part ++ later)) fun _ _ step => step.append before later

theorem derives_map_terminal (w : List Name) : G.Derives (w.map .terminal) w := by
  induction w with
  | nil => exact .nil
  | cons a w ih => exact .terminal ih

/-- Rewriting does not add words. -/
theorem Rewrites.derives (h : G.Rewrites left right) (derives : G.Derives right w) :
    G.Derives left w := by
  cases h with
  | replace mem =>
    -- the word of the body that was put in belongs to the non-terminal
    obtain ⟨u, v, rfl, hu, hv⟩ := derives_append_iff.mp derives
    obtain ⟨x, y, rfl, hx, hy⟩ := derives_append_iff.mp hv
    exact derives_append_iff.mpr ⟨u, x ++ y, rfl, hu, .nonterminal mem hx hy⟩

/-- **Derivation trees and rewriting agree.** -/
theorem derives_iff_rewrites :
    G.Derives body w ↔ ReflTransGen G.Rewrites body (w.map .terminal) := by
  refine ⟨fun h => ?_, fun h => ?_⟩
  · induction h with
    | nil => exact .refl
    | @terminal a rest w _ ih =>
      -- the terminal stays where it is while the rest is rewritten
      have later := rewrites_append [.terminal a] [] ih
      rw [List.append_nil, List.append_nil] at later
      exact later
    | @nonterminal A body rest u v mem _ _ ihu ihv =>
      -- the non-terminal first, then its body, and what stands behind it in the end
      have first : G.Rewrites (.nonterminal A :: rest) (body ++ rest) :=
        @Rewrites.replace G [] _ _ _ mem
      have inside := rewrites_append [] rest ihu
      have behind := rewrites_append (u.map .terminal) [] ihv
      rw [List.append_nil, List.append_nil] at behind
      rw [List.map_append]
      exact (ReflTransGen.head first inside).trans behind
  · induction h using ReflTransGen.head_induction_on with
    | refl => exact derives_map_terminal w
    | head step _ ih => exact step.derives ih

end Grammar

end ContextFree
