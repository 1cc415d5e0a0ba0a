import ContextFree.Command.Session
import ContextFree.Proofs.Membership
import ContextFree.Proofs.NormalForm

/-!
# What a run of the program prints

A request for a grammar that can be read either comes to a whole report or to nothing at all on the
standard output. It can go wrong in two places only: where the text is read as a grammar, and where
this grammar is brought into normal form. Both come before anything is printed. What comes after
does not go wrong, although it is written as if it could: there are stages to show, the last of them
leads to a grammar in normal form, and a grammar in normal form has a chart for every word.

* `Command.Session.ending` — what a session prints and how it ends, but for its events;
* `Grammar.exists_normalFormStages`, `Grammar.normalFormStages_eq_error` — the stages are collected
  if the normal form is reached, and only then; the last of them leads to it;
* `Command.Request.ending_session` — the report, if nothing goes wrong;
* `Command.Request.exists_reply` — there is an answer for every word;
* `Command.runWith_of_readable` — what the program does with a source that can be read.
-/

namespace ContextFree

/-! ### Stages that are collected -/

namespace Grammar

variable {G H : Grammar}

theorem outcome_collectAll_cons (stage : Stage) (stages : List Stage) (supply : NameSupply)
    (G : Grammar) :
    (collectAll (stage :: stages) supply G).outcome =
      (stage.apply supply G).2.outcome.bind fun H =>
        (collectAll stages (stage.apply supply G).1 H).outcome.map ((stage, H) :: ·) := by
  rw [collectAll]
  simp only [Report.outcome_bind, Report.note, Report.outcome_pure]
  congr 1

/-- Collecting what the stages lead to is applying them, and what is collected last is where they
lead. -/
theorem outcome_applyAll_eq (stages : List Stage) (supply : NameSupply) (G : Grammar) :
    (applyAll stages supply G).outcome =
      (collectAll stages supply G).outcome.map fun collected =>
        (collected.getLast?.map (·.2)).getD G := by
  induction stages generalizing supply G with
  | nil => rfl
  | cons stage stages ih =>
    rw [applyAll_cons, Report.outcome_bind, outcome_collectAll_cons]
    cases (stage.apply supply G).2.outcome with
    | error failure => rfl
    | ok H =>
      simp only [Except.bind]
      rw [ih]
      cases (collectAll stages (stage.apply supply G).1 H).outcome with
      | error failure => rfl
      | ok collected =>
        -- the first stage counts only where it is the last one as well
        refine congrArg Except.ok ?_
        simp only [List.getLast?_cons]
        cases collected.getLast? <;> rfl

/-- One grammar is collected for each stage. -/
theorem map_fst_collectAll {stages : List Stage} {supply : NameSupply}
    {collected : List (Stage × Grammar)}
    (ok : (collectAll stages supply G).outcome = .ok collected) :
    collected.map (·.1) = stages := by
  induction stages generalizing supply G collected with
  | nil =>
    cases ok
    rfl
  | cons stage stages ih =>
    rw [outcome_collectAll_cons] at ok
    obtain ⟨H, _, others⟩ := exists_of_bind_eq_ok ok
    obtain ⟨later, rest, rfl⟩ := exists_of_map_eq_ok others
    rw [List.map_cons, ih rest]

/-- **The last stage leads to the normal form.** -/
theorem exists_normalFormStages (ok : G.toNormalForm.outcome = .ok H) :
    ∃ stages, G.normalFormStages.outcome = .ok stages ∧ stages.map (·.1) = Stage.all ∧
      stages.getLast? = some (.binarize, H) := by
  rw [toNormalForm, outcome_applyAll_eq] at ok
  obtain ⟨stages, collected, last⟩ := exists_of_map_eq_ok ok
  have all : stages.map (·.1) = Stage.all := map_fst_collectAll collected
  refine ⟨stages, collected, all, ?_⟩
  -- what is collected last belongs to the last stage, so something has been collected
  have stage : stages.getLast?.map (·.1) = some .binarize := by
    rw [← List.getLast?_map, all]
    rfl
  cases final : stages.getLast? with
  | none =>
    rw [final] at stage
    cases stage
  | some pair =>
    obtain ⟨own, K⟩ := pair
    rw [final] at stage last
    cases stage
    cases last
    rfl

/-- Where the normal form is not reached, no stages are collected, and for the same reason. -/
theorem normalFormStages_eq_error {failure : Failure}
    (error : G.toNormalForm.outcome = .error failure) :
    G.normalFormStages.outcome = .error failure := by
  rw [toNormalForm, outcome_applyAll_eq] at error
  exact eq_error_of_map_eq_error error

end Grammar

/-! ### Sessions and how they end -/

namespace Command

namespace Session

variable {α β : Type}

/-- What a session prints and how it ends. -/
def ending (session : Session α) : String × Except Trouble α := (session.output, session.result)

/-- A part that ends well is followed by what comes after it. -/
theorem ending_bind {first : Session α} {text : String} {a : α}
    (ends : first.ending = (text, .ok a)) (next : α → Session β) :
    (first >>= next).ending = (text ++ (next a).ending.1, (next a).ending.2) := by
  obtain ⟨rfl, ok⟩ := Prod.mk.inj ends
  change (andThen first next).ending = _
  rw [andThen, ok]
  rfl

/-- Trouble is not followed by anything. -/
theorem ending_bind_of_error {first : Session α} {trouble : Trouble}
    (error : first.result = .error trouble) (next : α → Session β) :
    (first >>= next).ending = (first.output, .error trouble) := by
  change (andThen first next).ending = _
  rw [andThen, error]
  rfl

/-- A silent part that ends well does not show. -/
theorem ending_bind_of_silent {first : Session α} {a : α} (ends : first.ending = ("", .ok a))
    (next : α → Session β) : (first >>= next).ending = (next a).ending := by
  rw [ending_bind ends, String.empty_append]

theorem ending_attempt_bind {report : Report α} {a : α} (ok : report.outcome = .ok a)
    (trouble : Failure → Trouble) (next : α → Session β) :
    (attempt report trouble >>= next).ending = (next a).ending :=
  ending_bind_of_silent (congrArg (Prod.mk "") (mapError_eq_ok_iff.mpr ok)) next

theorem ending_attempt_bind_of_error {report : Report α} {failure : Failure}
    (error : report.outcome = .error failure) (trouble : Failure → Trouble)
    (next : α → Session β) :
    (attempt report trouble >>= next).ending = ("", .error (trouble failure)) :=
  ending_bind_of_error (mapError_eq_error_iff.mpr ⟨failure, error, rfl⟩) next

theorem ending_ensure_bind {ε : Type} {value : Except ε α} {a : α} (ok : value = .ok a)
    (trouble : ε → Trouble) (next : α → Session β) :
    (ensure value trouble >>= next).ending = (next a).ending :=
  ending_bind_of_silent (congrArg (Prod.mk "") (mapError_eq_ok_iff.mpr ok)) next

theorem ending_note_bind (event : Event) (next : Unit → Session β) :
    (note event >>= next).ending = (next ()).ending :=
  ending_bind_of_silent rfl next

theorem ending_print_bind (text : String) (next : Unit → Session β) :
    (print text >>= next).ending = (text ++ "\n" ++ (next ()).ending.1, (next ()).ending.2) :=
  ending_bind rfl next

end Session

namespace Request

open Session

variable {request : Request} {G H : Grammar} {stages : List (Stage × Grammar)} {stage : Stage}
  {N : NormalGrammar} {text replied : String}

/-! ### The report -/

/-- What is printed about the grammar: its normal form, or else the grammar itself and what each
stage makes of it. -/
def shown (request : Request) (G : Grammar) (stages : List (Stage × Grammar)) (H : Grammar) :
    String :=
  if request.stages then
    "Input:\n" ++ request.render G ++ "\n" ++ String.join (stages.map fun pair =>
      s!"After {pair.1.label}:\n" ++ request.render pair.2 ++ "\n")
  else "Chomsky Normal Form:\n" ++ request.render H ++ "\n"

/-- What is printed about the word that is looked for: its chart, if there is such a word. -/
def reply (request : Request) (N : NormalGrammar) : Except IndexFault String :=
  match request.word with
  | none => .ok ""
  | some word =>
    (N.chart (Text.words Text.isWhiteSpace word.toList)).map fun chart => chart.display ++ "\n"

theorem ending_forM_print (print : Stage × Grammar → String) (stages : List (Stage × Grammar)) :
    (stages.forM fun pair => Session.print (print pair)).ending
      = (String.join (stages.map fun pair => print pair ++ "\n"), .ok ()) := by
  induction stages with
  | nil => rfl
  | cons pair stages ih =>
    change (Session.print (print pair) >>= fun _ => stages.forM _).ending = _
    rw [ending_print_bind, ih, List.map_cons, String.join_cons]

/-- Showing the stages does not fail. -/
theorem ending_printStages (listed : request.stages) (H : Grammar) :
    (request.printStages G stages).ending = (request.shown G stages H, .ok ()) := by
  rw [printStages, ending_print_bind, ending_forM_print, shown, if_pos listed]

/-- Nor does the answer, if there is a chart. -/
theorem ending_reply (replies : request.reply N = .ok replied) :
    (match request.word with
      | some word => do
        let chart ← ensure (N.chart (Text.words Text.isWhiteSpace word.toList)) .chart
        Session.print chart.display
      | _ => pure ()).ending = (replied, .ok ()) := by
  unfold reply at replies
  cases word : request.word with
  | none =>
    rw [word] at replies
    cases replies
    rfl
  | some word =>
    rw [word] at replies
    obtain ⟨chart, filled, rfl⟩ := exists_of_map_eq_ok replies
    exact ending_ensure_bind filled ..

/-- **The whole session**, if nothing goes wrong: what there is to show, and then the answer. -/
theorem ending_session (read : (Grammar.ofText text).outcome = .ok G)
    (collected : G.normalFormStages.outcome = .ok stages)
    (last : stages.getLast? = some (stage, H)) (normal : NormalGrammar.ofGrammar H = .ok N)
    (same : N.toGrammar = H) (replies : request.reply N = .ok replied) :
    (request.session (.ok text)).ending = (request.shown G stages H ++ replied, .ok ()) := by
  unfold session
  rw [ending_ensure_bind rfl, ending_attempt_bind read, ending_note_bind,
    ending_attempt_bind collected]
  simp only [last]
  -- whatever is shown, the answer comes after it
  have answered (shown : String) := congrArg
    (fun (ending : String × Except Trouble Unit) => (shown ++ ending.1, ending.2))
    (ending_reply replies)
  by_cases listed : request.stages
  · -- the stages are shown before the normal form is looked at
    rw [if_pos listed, ending_bind (ending_printStages listed H), ending_ensure_bind normal,
      if_neg (by simpa using listed)]
    exact answered _
  · rw [if_neg listed, ending_ensure_bind normal, if_pos (by simpa using listed),
      ending_print_bind, same, shown, if_neg listed]
    exact answered _

/-- The session, if the text is not a grammar. -/
theorem ending_session_of_unreadable {failure : Failure}
    (error : (Grammar.ofText text).outcome = .error failure) :
    (request.session (.ok text)).ending = ("", .error (.invalidGrammar request.file failure)) := by
  unfold session
  rw [ending_ensure_bind rfl, ending_attempt_bind_of_error error]

/-- The session, if the grammar cannot be brought into normal form. -/
theorem ending_session_of_stuck {failure : Failure}
    (read : (Grammar.ofText text).outcome = .ok G)
    (error : G.normalFormStages.outcome = .error failure) :
    (request.session (.ok text)).ending = ("", .error (.normalization failure)) := by
  unfold session
  rw [ending_ensure_bind rfl, ending_attempt_bind read, ending_note_bind,
    ending_attempt_bind_of_error error]

/-! ### The answer -/

/-- The last line of a chart that is written out. -/
def verdict (terminals : List Name) (start : Name) (accepted : Bool) : String :=
  let found := if accepted then "accepted" else "rejected"
  s!"\"{spell (terminals.map (·.text))}\" is {found} from {start.text}\n"

theorem exists_display_eq (chart : Chart) :
    ∃ table, chart.display = table ++ verdict chart.word chart.start chart.accepts :=
  ⟨_, rfl⟩

/-- What is printed about a word is its chart, and the last line tells whether the grammar generates
the terminals that the word consists of. -/
def Answers (G H : Grammar) (word printed : String) : Prop :=
  let terminals := Text.words Text.isWhiteSpace word.toList
  ∃ N chart table accepted, NormalGrammar.ofGrammar H = .ok N ∧ N.chart terminals = .ok chart ∧
    printed = chart.display ++ "\n" ∧ chart.display = table ++ verdict terminals G.start accepted ∧
    (accepted = true ↔ terminals ≠ [] ∧ G.Generates G.start terminals)

/-- What is printed in reply to the request: nothing, unless a word is looked for. -/
def Replies (request : Request) (G H : Grammar) (printed : String) : Prop :=
  match request.word with
  | none => printed = ""
  | some word => Answers G H word printed

/-- The whole report on a grammar that is brought into normal form. -/
def Reports (request : Request) (G H : Grammar) (output : String) : Prop :=
  ∃ stages replied, G.normalFormStages.outcome = .ok stages ∧ stages.map (·.1) = Stage.all ∧
    stages.getLast? = some (.binarize, H) ∧ request.Replies G H replied ∧
    output = request.shown G stages H ++ replied

/-- **There is always an answer**: a grammar in normal form has a chart for every word. -/
theorem exists_reply (request : Request) (wf : G.WellFormed)
    (form : G.toNormalForm.outcome = .ok H) :
    ∃ N replied, NormalGrammar.ofGrammar H = .ok N ∧ N.toGrammar = H ∧
      request.reply N = .ok replied ∧ request.Replies G H replied := by
  obtain ⟨N, normal⟩ := Grammar.exists_ofGrammar_iff.mpr (wf.isNormal_of_toNormalForm form)
  obtain ⟨steps, rfl, _⟩ := Grammar.exists_run_of_applyAll form
  have same := (wf.run steps).ofGrammar_eq_ok_iff.mp normal
  refine ⟨N, ?_⟩
  unfold reply Replies
  cases request.word with
  | none => exact ⟨"", normal, same, rfl, rfl⟩
  | some word =>
    simp only
    generalize terminals_eq : Text.words Text.isWhiteSpace word.toList = terminals
    -- the chart is filled over the terminals of the word, from the start symbol of the source
    have distinct : N.toGrammar.leftSides.Nodup := same ▸ (wf.run steps).leftSides_nodup
    obtain ⟨chart, filled, shows⟩ := NormalGrammar.exists_chart_shows distinct terminals
    obtain ⟨_, again, accepts⟩ := wf.exists_chart_of_run normal terminals
    cases again.symm.trans filled
    have start : chart.start = G.start :=
      calc chart.start = N.toGrammar.start := shows.start_eq
        _ = (G.run steps).start := congrArg Grammar.start same
        _ = G.start := (wf.start_terminals_run_eq steps).1
    obtain ⟨table, display⟩ := exists_display_eq chart
    rw [shows.word_eq, start] at display
    refine ⟨chart.display ++ "\n", normal, same, by rw [filled]; rfl, ?_⟩
    exact ⟨N, chart, table, chart.accepts, normal, terminals_eq ▸ filled, rfl,
      terminals_eq ▸ display, terminals_eq ▸ accepts⟩

/-- **How a session can end** that has a text to read. -/
theorem cases_of_session (request : Request) (text : String) :
    (∃ G H output, (Grammar.ofText text).outcome = .ok G ∧ G.toNormalForm.outcome = .ok H ∧
      request.Reports G H output ∧ (request.session (.ok text)).ending = (output, .ok ())) ∨
    (¬ ∃ G H, (Grammar.ofText text).outcome = .ok G ∧ G.toNormalForm.outcome = .ok H) ∧
      ∃ cause trouble, (trouble = .invalidGrammar request.file cause ∨
          trouble = .normalization cause) ∧
        (request.session (.ok text)).ending = ("", .error trouble) := by
  cases read : (Grammar.ofText text).outcome with
  | error failure =>
    exact .inr ⟨nofun, failure, _, .inl rfl, ending_session_of_unreadable read⟩
  | ok G =>
    have wf := Grammar.ofText_wellFormed read
    cases form : G.toNormalForm.outcome with
    | error failure =>
      refine .inr ⟨?_, failure, _, .inr rfl,
        ending_session_of_stuck read (Grammar.normalFormStages_eq_error form)⟩
      rintro ⟨_, H, same, other⟩
      cases same
      cases form.symm.trans other
    | ok H =>
      obtain ⟨stages, collected, all, last⟩ := Grammar.exists_normalFormStages form
      obtain ⟨N, replied, normal, same, replies, answers⟩ := exists_reply request wf form
      exact .inl ⟨G, H, _, rfl, form, ⟨stages, replied, collected, all, last, answers, rfl⟩,
        ending_session read collected last normal same replies⟩

end Request

/-! ### The program -/

/-- A session that ends well has the exit code 0. -/
theorem Session.outcome_of_ok {session : Session Unit} {output : String}
    (ends : session.ending = (output, .ok ())) (threshold : Threshold) :
    (session.outcome threshold).code = 0 ∧ (session.outcome threshold).output = output := by
  obtain ⟨rfl, ok⟩ := Prod.mk.inj ends
  unfold Session.outcome
  rw [ok]
  exact ⟨rfl, rfl⟩

/-- A session that ends in trouble has the exit code 1. -/
theorem Session.outcome_of_error {session : Session Unit} {output : String} {trouble : Trouble}
    (ends : session.ending = (output, .error trouble)) (threshold : Threshold) :
    (session.outcome threshold).code = 1 ∧ (session.outcome threshold).output = output := by
  obtain ⟨rfl, error⟩ := Prod.mk.inj ends
  unfold Session.outcome
  rw [error]
  exact ⟨rfl, rfl⟩

variable {arguments : List String} {set : Option Threshold}
  {source : String → Except ReadFault String} {request : Request} {text : String}

/-- **All or nothing.** With a source that can be read, the program ends with the exit code 0 if and
only if the text is a grammar that can be brought into normal form. Then it has printed the whole
report; otherwise the exit code is 1 and nothing has been printed on the standard output, because
the text is not a grammar or because its normal form is not reached. Nothing else goes wrong. -/
theorem runWith_of_readable (asked : Request.ofArguments arguments = .ok request)
    (readable : source request.file = .ok text) :
    ((runWith arguments set source).code = 0 ↔
      ∃ G H, (Grammar.ofText text).outcome = .ok G ∧ G.toNormalForm.outcome = .ok H) ∧
    (∀ G H, (Grammar.ofText text).outcome = .ok G → G.toNormalForm.outcome = .ok H →
      request.Reports G H (runWith arguments set source).output) ∧
    ((runWith arguments set source).code ≠ 0 →
      (runWith arguments set source).code = 1 ∧ (runWith arguments set source).output = "") ∧
    ∀ trouble, (request.session (source request.file)).result = .error trouble →
      ∃ cause, trouble = .invalidGrammar request.file cause ∨ trouble = .normalization cause := by
  have runs : runWith arguments set source
      = (request.session (.ok text)).outcome (request.threshold set) := by
    unfold runWith
    rw [asked, ← readable]
  rw [runs, readable]
  rcases request.cases_of_session text with
    ⟨G, H, output, read, form, reports, ends⟩ | ⟨none, cause, trouble, kind, ends⟩
  · -- all goes well, and the grammars are those that the text and the stages determine
    obtain ⟨code, printed⟩ := Session.outcome_of_ok ends (request.threshold set)
    refine ⟨iff_of_true code ⟨G, H, read, form⟩, ?_, fun failed => absurd code failed, ?_⟩
    · rintro G' H' read' form'
      cases read.symm.trans read'
      cases form.symm.trans form'
      rw [printed]
      exact reports
    · intro trouble error
      cases (Prod.mk.inj ends).2.symm.trans error
  · -- there is trouble, and nothing was printed before it
    obtain ⟨code, printed⟩ := Session.outcome_of_error ends (request.threshold set)
    have failed : ((request.session (.ok text)).outcome (request.threshold set)).code ≠ 0 := by
      rw [code]
      exact Nat.one_ne_zero
    refine ⟨iff_of_false failed none, ?_, fun _ => ⟨code, printed⟩, ?_⟩
    · exact fun G H read form => absurd ⟨G, H, read, form⟩ none
    · intro other error
      cases (Prod.mk.inj ends).2.symm.trans error
      exact ⟨cause, kind⟩

/-- Asks for the stages, and whether `( )` is a word. -/
def bracketArguments : List String := ["--stages", "-w", "( )", "-"]

def bracketRequest : Request := ⟨"-", true, false, some "( )", false⟩

def bracketSource : String → Except ReadFault String := fun _ => .ok "S → ( S ) S | ε"

open Grammar in
/-- The grammar of brackets is read, its stages are shown and then its chart, and the last line says
that the word is accepted. -/
theorem bracketArguments_runWith :
    Request.ofArguments bracketArguments = .ok bracketRequest ∧
      (runWith bracketArguments none bracketSource).code = 0 ∧
      ∃ before, (runWith bracketArguments none bracketSource).output
        = before ++ Request.verdict bracketPair brackets.start true ++ "\n" := by
  have asked : Request.ofArguments bracketArguments = .ok bracketRequest := by decide +kernel
  have read : (ofText "S → ( S ) S | ε").outcome = .ok brackets := by decide +kernel
  have form : brackets.toNormalForm.outcome = .ok (brackets.run (Stage.all.map (·, .full))) := by
    decide +kernel
  obtain ⟨code, reports, _⟩ := @runWith_of_readable _ none bracketSource _ _ asked rfl
  obtain ⟨stages, _, _, _, _, ⟨_, _, table, _, _, _, rfl, display, accepts⟩, output⟩ :=
    reports brackets _ read form
  have word : Text.words Text.isWhiteSpace "( )".toList = bracketPair := by decide +kernel
  rw [word] at display accepts
  -- both `S` in the body of `S` vanish
  have vanishes : [] ∈ brackets.bodies brackets.start := by decide
  have generates : brackets.Generates brackets.start bracketPair :=
    ⟨_, List.mem_cons_self,
      .terminal (.nonterminal vanishes .nil (.terminal (.nonterminal vanishes .nil .nil)))⟩
  rw [accepts.mpr ⟨by decide, generates⟩] at display
  refine ⟨asked, code.mpr ⟨_, _, read, form⟩,
    bracketRequest.shown brackets stages (brackets.run (Stage.all.map (·, .full))) ++ table, ?_⟩
  rw [output, display]
  simp only [String.append_assoc]

end Command

end ContextFree
