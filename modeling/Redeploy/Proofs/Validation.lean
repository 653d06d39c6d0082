/-
What the check of a configuration is good for.

The check goes through fixed questions about the sections, then through the level and the directives of the log filter. The
start of a node and the making of the filter meet the same values later, one at a time, and stop at the first that they
cannot use. Both are safe once the check finds nothing: a node starts and its failure detector has time between its sweeps,
and the filter is made. A node whose configuration fails the check refuses to start before it has made anything.

The reader of directives is taken as it is. It does not come back from some directives that white space stands in front of;
then the check does not come back either, nor does the start.

Results:
- `problems_of_readable`, `problems_of_split`: what the check finds, and when it comes back;
- `alone?_start`, `start_of_valid`, `start_of_invalid`: the start of a node;
- `filter_of_readable`: the filter, or the first complaint;
- **`validation_suffices`**: the check is what start and logging need.
-/
import Mathlib.Data.List.Basic
import Redeploy.Logging.Filter
import Redeploy.Proofs.Directives
import Redeploy.Proofs.Directory
import Redeploy.Simulation.Run

namespace Redeploy

namespace Config

/-- a question about a configuration -/
inductive Check where
  | networkTimeout
  | heartbeatTimeout
  | checkInterval
  | level
  | directive (text : String)
deriving DecidableEq, Repr

namespace Check

/-- where a complaint about the log filter begins; the filter itself leaves it out -/
def heading : Check → String
  | level => "logging.level: "
  | directive _ => "logging.directives: "
  | _ => ""

/-- what is wrong, if the answer is -/
def fault? (c : Config) : Check → Option String
  | networkTimeout =>
    if c.deployment.networkTimeout = 0 then some "deployment.network_timeout_ms must be greater than zero" else none
  | heartbeatTimeout =>
    if c.membership.heartbeatTimeout ≤ 0 then some "membership.heartbeat_timeout_secs must be greater than zero" else none
  | checkInterval =>
    if c.membership.checkInterval = 0 then some "membership.check_interval_secs must be greater than zero" else none
  | level =>
    if (Logging.Level.ofName? c.logging.level).isNone then some ("Invalid log level: " ++ c.logging.level) else none
  | directive text =>
    match (Logging.Directive.parse text).run with
    | .ok (.error e) => some ("Invalid filter directive " ++ Text.quote text ++ ": " ++ e.message)
    | _ => none

/-- the problem that the check reports -/
def problem? (c : Config) (k : Check) : Option String := (k.fault? c).map (k.heading ++ ·)

end Check

/-- the questions about the log filter -/
def loggingChecks (c : Config) : List Check := .level :: c.logging.directives.map .directive

/-- all questions, in their order -/
def checks (c : Config) : List Check := [.networkTimeout, .heartbeatTimeout, .checkInterval] ++ c.loggingChecks

/-- the reader comes back from every directive, whatever it says -/
def Readable (c : Config) : Prop :=
  ∀ text ∈ c.logging.directives, ∃ result, (Logging.Directive.parse text).run = .ok result

variable {c : Config}

theorem readable_of_tidy (h : ∀ text ∈ c.logging.directives, Logging.Directive.Tidy text) : c.Readable :=
  fun text htext => Logging.Directive.parse_comes_back (h text htext)

/-! ## The check -/

section

variable {ε α β : Type} {f : α → Except ε β}

theorem mapM_of_ok {g : α → β} {l : List α} (h : ∀ a ∈ l, f a = .ok (g a)) : l.mapM f = .ok (l.map g) := by
  induction l with
  | nil => rfl
  | cons a l ih =>
    rw [List.mapM_cons, h a List.mem_cons_self, ih fun b hb => h b (List.mem_cons_of_mem a hb)]
    rfl

/-- a traversal that comes to its end has got a result for each item -/
theorem ok_of_mapM {l : List α} {bs : List β} (h : l.mapM f = .ok bs) : ∀ a ∈ l, ∃ b, f a = .ok b := by
  induction l generalizing bs with
  | nil => simp
  | cons a l ih =>
    rw [List.mapM_cons] at h
    cases ha : f a with
    | error e => rw [ha] at h; cases h
    | ok b =>
      cases hl : l.mapM f with
      | error e => rw [ha, hl] at h; cases h
      | ok bs' =>
        intro a' ha'
        rcases List.mem_cons.1 ha' with rfl | hmem
        · exact ⟨b, ha⟩
        · exact ih hl a' hmem

end

theorem notPositive_eq (key : String) (fails : Prop) [Decidable fails] :
    notPositive key (decide fails) = (if fails then some (key ++ " must be greater than zero") else none).toList := by
  by_cases h : fails <;> simp [notPositive, h]

/-- the problem of a check that is not about the filter is its fault -/
theorem problem?_of_heading {k : Check} (h : k.heading = "") : k.problem? c = k.fault? c := by
  simp [Check.problem?, h]

theorem complaint_level (c : Config) :
    LoggingConfig.complaint "logging.level: " (LoggingConfig.parseLevel c.logging.level) =
      (Check.level.problem? c).toList := by
  simp only [LoggingConfig.parseLevel, Check.problem?, Check.fault?]
  cases Logging.Level.ofName? c.logging.level <;> rfl

theorem parseDirective_run (text : String) :
    (LoggingConfig.parseDirective text).run =
      (Logging.Directive.parse text).run.map (·.mapError (LoggingConfig.directiveError text)) := by
  show Except.map _ _ = _
  congr 1

theorem complaint_directive {text : String} {result : Except Logging.DirectiveError Logging.Directive}
    (h : (Logging.Directive.parse text).run = .ok result) :
    (return LoggingConfig.complaint "logging.directives: " (← (LoggingConfig.parseDirective text).run) :
      Except Text.Split (List String)) = .ok ((Check.directive text).problem? c).toList := by
  rw [parseDirective_run, h]
  simp only [Check.problem?, Check.fault?, h]
  cases result <;> rfl

theorem logging_problems_of_readable (h : c.Readable) :
    c.logging.problems = .ok (c.loggingChecks.filterMap (·.problem? c)) := by
  have hdirectives := mapM_of_ok (g := fun text => ((Check.directive text).problem? c).toList) (l := c.logging.directives)
    fun text htext => complaint_directive (c := c) (h text htext).choose_spec
  have hflat : (c.logging.directives.map fun text => ((Check.directive text).problem? c).toList).flatten =
      (c.logging.directives.map Check.directive).filterMap (·.problem? c) := by
    rw [List.filterMap_map, List.filterMap_eq_flatMap_toList]
    rfl
  calc c.logging.problems
    _ = .ok (LoggingConfig.complaint "logging.level: " (LoggingConfig.parseLevel c.logging.level) ++
        (c.logging.directives.map fun text => ((Check.directive text).problem? c).toList).flatten) := by
      rw [LoggingConfig.problems, hdirectives]
      rfl
    _ = .ok (c.loggingChecks.filterMap (·.problem? c)) := by
      rw [complaint_level, hflat, loggingChecks, List.filterMap_cons]
      cases Check.level.problem? c <;> rfl

/-- the problems are those of the failing checks, in order -/
theorem problems_of_readable (h : c.Readable) : c.problems = .ok (c.checks.filterMap (·.problem? c)) := by
  have hnetwork : notPositive "deployment.network_timeout_ms" (c.deployment.networkTimeout == 0) =
      (Check.networkTimeout.problem? c).toList := by
    rw [problem?_of_heading rfl]
    exact notPositive_eq _ _
  have hheartbeat : notPositive "membership.heartbeat_timeout_secs" (c.membership.heartbeatTimeout ≤ 0) =
      (Check.heartbeatTimeout.problem? c).toList := by
    rw [problem?_of_heading rfl]
    exact notPositive_eq _ _
  have hinterval : notPositive "membership.check_interval_secs" (c.membership.checkInterval == 0) =
      (Check.checkInterval.problem? c).toList := by
    rw [problem?_of_heading rfl]
    exact notPositive_eq _ _
  rw [problems, logging_problems_of_readable h, checks, List.filterMap_append, hnetwork, hheartbeat, hinterval]
  simp [List.filterMap_eq_flatMap_toList]

/-- the check comes back only if the reader does from every directive -/
theorem readable_of_problems {ps : List String} (h : c.problems = .ok ps) : c.Readable := by
  intro text htext
  cases hall : c.logging.directives.mapM fun d => do
      return LoggingConfig.complaint "logging.directives: " (← (LoggingConfig.parseDirective d).run) with
  | error cut =>
    rw [problems, LoggingConfig.problems, hall] at h
    cases h
  | ok complaints =>
    obtain ⟨complaint, hcomplaint⟩ := ok_of_mapM hall text htext
    rw [parseDirective_run] at hcomplaint
    cases hread : (Logging.Directive.parse text).run with
    | ok result => exact ⟨result, rfl⟩
    | error cut =>
      rw [hread] at hcomplaint
      cases hcomplaint

/-! ## The filter -/

section

open Logging

/-- directives are added to a filter until one is malformed -/
theorem addDirectives_run (c : Config) {texts : List String} (f : Filter)
    (h : ∀ text ∈ texts, ∃ result, (Directive.parse text).run = .ok result) :
    let added := (texts.foldlM (fun f d => do return f.addDirective (← LoggingConfig.parseDirective d)) f :
      ExceptT String (Except Text.Split) Filter).run
    match texts.findSome? fun text => (Check.directive text).fault? c with
    | some e => added = .ok (.error e)
    | none => ∃ f', added = .ok (.ok f') := by
  induction texts generalizing f with
  | nil => exact ⟨f, rfl⟩
  | cons text texts ih =>
    obtain ⟨result, hresult⟩ := h text List.mem_cons_self
    intro added
    have hadded : added = match result with
        | .ok d => (texts.foldlM (fun f d => do return f.addDirective (← LoggingConfig.parseDirective d))
            (f.addDirective d) : ExceptT String (Except Text.Split) Filter).run
        | .error e => .ok (.error (LoggingConfig.directiveError text e)) := by
      simp only [added, List.foldlM_cons, ExceptT.run_bind, parseDirective_run, hresult]
      cases result <;> rfl
    rw [List.findSome?_cons]
    cases result with
    | ok d =>
      have hfault : (Check.directive text).fault? c = none := by simp only [Check.fault?, hresult]
      rw [hfault, hadded]
      exact ih (f.addDirective d) fun text' htext' => h text' (List.mem_cons_of_mem text htext')
    | error e =>
      have hfault : (Check.directive text).fault? c = some (LoggingConfig.directiveError text e) := by
        simp only [Check.fault?, hresult]
        rfl
      rw [hfault]
      exact hadded

/-- the filter is made, or refused for the first fault -/
theorem filter_of_readable (h : c.Readable) :
    match c.loggingChecks.findSome? (·.fault? c) with
    | some e => (Filter.ofConfig c.logging).run = .ok (.error e)
    | none => ∃ f, (Filter.ofConfig c.logging).run = .ok (.ok f) := by
  rw [loggingChecks, List.findSome?_cons]
  cases hlevel : Level.ofName? c.logging.level with
  | none =>
    have hfault : Check.level.fault? c = some (LoggingConfig.levelError c.logging.level) := by
      simp only [Check.fault?, hlevel]
      rfl
    rw [hfault]
    simp only [Filter.ofConfig, LoggingConfig.parseLevel, hlevel]
    rfl
  | some level =>
    have hfault : Check.level.fault? c = none := by simp [Check.fault?, hlevel]
    rw [hfault, List.findSome?_map]
    have hrun : (Filter.ofConfig c.logging).run = (c.logging.directives.foldlM
        (fun f d => do return f.addDirective (← LoggingConfig.parseDirective d)) [⟨none, [], some level⟩] :
          ExceptT String (Except Text.Split) Filter).run := by
      simp only [Filter.ofConfig, LoggingConfig.parseLevel, hlevel]
      rfl
    rw [hrun]
    exact addDirectives_run c [⟨none, [], some level⟩] h

end

/-- the first fault is the first problem without its heading -/
theorem head?_problems {k : List Check} {e : String} (h : k.findSome? (·.fault? c) = some e) :
    ∃ first ∈ k, (k.filterMap (·.problem? c)).head? = some (first.heading ++ e) := by
  obtain ⟨before, first, after, hk, hfirst, hbefore⟩ := List.findSome?_eq_some_iff.1 h
  refine ⟨first, by simp [hk], ?_⟩
  rw [List.head?_filterMap, List.findSome?_eq_some_iff]
  refine ⟨before, first, after, hk, by simp [Check.problem?, hfirst], ?_⟩
  intro k hk
  simp [Check.problem?, hbefore k hk]

theorem faultless_iff {k : List Check} :
    k.findSome? (·.fault? c) = none ↔ k.filterMap (·.problem? c) = [] := by
  simp [Check.problem?]

end Config

/-! ## The start of a node -/

namespace Call

variable {g g' : Registry} {c c' : Call} {effects : List Effect}

theorem alone?_go (hquery : c.query g = .nothing) (h : c.advance g {} = ⟨g', effects, .go c'⟩) :
    alone? g c = (alone? g' c').map fun (g'', later, outcome) => (g'', effects ++ later, outcome) := by
  have hnext : (c.advance g {}).next = .go c' := by rw [h]
  rw [alone?, if_pos hquery]
  simp only [h]
  split
  · rename_i c'' hgo
    obtain rfl : c' = c'' := Next.go.inj (hnext.symm.trans hgo)
    rfl
  · rename_i hwait
    cases hnext.symm.trans hwait
  · rename_i hdone
    cases hnext.symm.trans hdone

theorem alone?_done {outcome : Outcome} (hquery : c.query g = .nothing)
    (h : c.advance g {} = ⟨g', effects, .done outcome⟩) : alone? g c = some (g', effects, outcome) := by
  have hnext : (c.advance g {}).next = .done outcome := by rw [h]
  rw [alone?, if_pos hquery]
  simp only [h]
  split
  · rename_i hgo
    cases hnext.symm.trans hgo
  · rename_i hwait
    cases hnext.symm.trans hwait
  · rename_i outcome' hdone
    obtain rfl : outcome = outcome' := Next.done.inj (hnext.symm.trans hdone)
    rfl

/-- a registry that has just been made starts at once, and has nothing to sweep -/
theorem alone?_start (timeout : Nat) :
    alone? { timeout } (.start false) =
      some ({ timeout, started := true }, [.subscribe, .notice (.registryStarted timeout 0)], .removed 0) := by
  have hchecked : alone? { timeout, started := true } (.removal (.sweep .starting) 0 (.checking [] [])) =
      some ({ timeout, started := true }, [.notice (.registryStarted timeout 0)], .removed 0) := alone?_done rfl rfl
  have hswept : alone? { timeout, started := true } (.removal (.sweep .starting) 0 .starting) =
      some ({ timeout, started := true }, [.notice (.registryStarted timeout 0)], .removed 0) :=
    (alone?_go rfl rfl).trans (congrArg _ hchecked)
  have hstarted : alone? { timeout } (.start true) =
      some ({ timeout, started := true }, [.subscribe, .notice (.registryStarted timeout 0)], .removed 0) :=
    (alone?_go rfl rfl).trans (congrArg _ hswept)
  exact (alone?_go rfl rfl).trans (congrArg _ hstarted)

end Call

namespace Node

variable {c : Config} {ps : List String}

/-- a node with a configuration that passes the check starts, inside the runtime -/
theorem start_of_valid (h : c.problems = .ok []) (address fresh : String) (clock : Timestamp) :
    ∃ n, (start c address fresh clock true).run = .ok (.ok n) ∧ n.registry.started = true ∧
      n.directory.isLive n.directory.self = true ∧ n.checkInterval ≠ 0 := by
  have hinterval : c.membership.checkInterval ≠ 0 := by
    intro hzero
    have hchecked := Config.problems_of_readable (Config.readable_of_problems h)
    rw [h, Except.ok.injEq, eq_comm, List.filterMap_eq_nil_iff] at hchecked
    have hfault := hchecked .checkInterval (by simp [Config.checks])
    simp [Config.Check.problem?, Config.Check.fault?, hzero] at hfault
  have hparts : (parts c fresh true).run = .ok (.ok
      { directory := .ofConfig c.membership fresh
        registry := { timeout := c.deployment.networkTimeout.toNat }
        checkInterval := c.membership.checkInterval.toNat * 1000 }) := by
    simp only [parts, h]
    rfl
  have hperiod : c.membership.checkInterval.toNat * 1000 ≠ 0 := by
    have hpos : c.membership.checkInterval.toNat ≠ 0 := fun h => hinterval (UInt64.toNat_inj.1 h)
    omega
  have hstart : (start c address fresh clock true).run = .ok (.ok
      { directory := ((Membership.Directory.ofConfig c.membership fresh).registerSelf address clock).1
        registry := { timeout := c.deployment.networkTimeout.toNat, started := true }
        checkInterval := c.membership.checkInterval.toNat * 1000
        announcements := ((Membership.Directory.ofConfig c.membership fresh).registerSelf address clock).2
        effects := [.subscribe, .notice (.registryStarted c.deployment.networkTimeout.toNat 0)] }) := by
    simp only [start, hparts, Except.mapError]
    simp only [bind, ExceptT.bind, ExceptT.bindCont, ExceptT.mk, ExceptT.run, Except.bind, Call.alone?_start,
      if_neg hperiod]
    rfl
  have hself : ((Membership.Directory.ofConfig c.membership fresh).registerSelf address clock).1.isLive
      (Membership.Directory.ofConfig c.membership fresh).self = true := by
    simp [Membership.Directory.registerSelf, Membership.Directory.isLive, Membership.Directory.find?_put]
  exact ⟨_, hstart, rfl, hself, hperiod⟩

/-- a node with one that fails does not -/
theorem start_of_invalid (h : c.problems = .ok ps) (hne : ps ≠ []) (address fresh : String) (clock : Timestamp)
    (inRuntime : Bool) :
    (start c address fresh clock inRuntime).run = .ok (.error (.configuration (Config.joined ps))) := by
  have hparts : (parts c fresh inRuntime).run = .ok (.error (.configuration (Config.joined ps))) := by
    cases ps with
    | nil => exact absurd rfl hne
    | cons p ps =>
      simp only [parts, h]
      rfl
  simp only [start, hparts]
  rfl

theorem start_of_split {cut : Text.Split} (h : c.problems = .error cut) (address fresh : String) (clock : Timestamp)
    (inRuntime : Bool) : (start c address fresh clock inRuntime).run = .error (.split cut) := by
  have hparts : (parts c fresh inRuntime).run = .error cut := by
    simp only [parts, h]
    rfl
  simp only [start, hparts]
  rfl

end Node

namespace Simulation

/-- a node that is refused has not asked or told anybody anything -/
theorem run_refused {c : Config} {ps : List String} (h : c.problems = .ok ps) (hne : ps ≠ []) {s : Setup}
    {address : String} (hhost : s.host = .node c address) (ops : List Op) :
    ∃ fault, run s ops = (⟨⟨fault, []⟩, none⟩, none) ∧
      ∀ sinks, s.sinks.mapM Sink.ofSpec = .ok sinks → fault = .failed (.configuration (Config.joined ps)) := by
  have hparts : s.host.parts s.timeout = .error (.failed (.configuration (Config.joined ps))) := by
    simp only [hhost, Host.parts, Node.start_of_invalid h hne]
  cases hsinks : s.sinks.mapM Sink.ofSpec with
  | error why =>
    have hready : ready s = .error (.panic why) := by
      simp only [ready, hsinks]
      rfl
    refine ⟨.panic why, by rw [run, hready], ?_⟩
    intro sinks hsinks'
    cases hsinks'
  | ok sinks =>
    have hready : ready s = .error (.failed (.configuration (Config.joined ps))) := by
      simp only [ready, hsinks, hparts]
      rfl
    exact ⟨_, by rw [run, hready], fun _ _ => rfl⟩

end Simulation

namespace Config

/-- **the check is what start and logging need**: it comes back exactly if the reader does from each directive, as it does
from tidy ones. Then it reports the problem of each failing check, in order. If there is none, a node with the configuration
starts and the filter is made. If there is one, no node starts: it refuses with all of them, before it has told or asked
anybody. A filter that is not made is refused for the first problem that the check has about it, and it is made exactly if
the check has none about it, whatever it finds elsewhere. -/
theorem validation_suffices (c : Config) :
    ((∃ ps, c.problems = .ok ps) ↔ c.Readable) ∧
    ((∀ text ∈ c.logging.directives, Logging.Directive.Tidy text) → c.Readable) ∧
    (∀ cut, c.problems = .error cut → ∀ address fresh clock inRuntime,
      (Node.start c address fresh clock inRuntime).run = .error (.split cut)) ∧
    ∀ ps, c.problems = .ok ps →
      ps = c.checks.filterMap (·.problem? c) ∧
      (ps = [] →
        (∀ address fresh clock, ∃ n, (Node.start c address fresh clock true).run = .ok (.ok n) ∧
          n.registry.started = true ∧ n.directory.isLive n.directory.self = true ∧ n.checkInterval ≠ 0) ∧
        ∀ environment, environment.lookup Logging.Filter.override = none →
          ∃ f, (Logging.Filter.choose environment c.logging).run = .ok (.ok f)) ∧
      (ps ≠ [] →
        (∀ address fresh clock inRuntime, (Node.start c address fresh clock inRuntime).run =
          .ok (.error (.configuration ("; ".intercalate ps)))) ∧
        ∀ (s : Simulation.Setup) (address : String) (ops : List Simulation.Op), s.host = .node c address →
          ∃ fault, Simulation.run s ops = (⟨⟨fault, []⟩, none⟩, none) ∧
            ∀ sinks, s.sinks.mapM Simulation.Sink.ofSpec = .ok sinks →
              fault = .failed (.configuration ("; ".intercalate ps))) ∧
      (∀ environment, environment.lookup Logging.Filter.override = none →
        (¬∃ f, (Logging.Filter.choose environment c.logging).run = .ok (.ok f)) →
        ps ≠ [] ∧ ∃ e, (Logging.Filter.choose environment c.logging).run = .ok (.error e) ∧
          ∃ k ∈ c.loggingChecks, (c.loggingChecks.filterMap (·.problem? c)).head? = some (k.heading ++ e)) ∧
      ∀ environment, environment.lookup Logging.Filter.override = none →
        ((∃ f, (Logging.Filter.choose environment c.logging).run = .ok (.ok f)) ↔
          c.loggingChecks.findSome? (·.fault? c) = none) ∧
        ∀ e, (Logging.Filter.choose environment c.logging).run = .ok (.error e) ↔
          c.loggingChecks.findSome? (·.fault? c) = some e := by
  have hchoose {environment : List (String × String)} (h : environment.lookup Logging.Filter.override = none) :
      Logging.Filter.choose environment c.logging = Logging.Filter.ofConfig c.logging := by
    simp only [Logging.Filter.choose, h]
  refine ⟨⟨fun ⟨ps, hps⟩ => readable_of_problems hps, fun h => ⟨_, problems_of_readable h⟩⟩, readable_of_tidy,
    fun cut hcut address fresh clock inRuntime => Node.start_of_split hcut address fresh clock inRuntime, ?_⟩
  intro ps hps
  have hreadable : c.Readable := readable_of_problems hps
  have hall : ps = c.checks.filterMap (·.problem? c) :=
    Except.ok.inj (hps.symm.trans (problems_of_readable hreadable))
  -- the problems about the filter are the last ones
  have hlogging (h : ps = []) : c.loggingChecks.filterMap (·.problem? c) = [] := by
    rw [h, checks, List.filterMap_append, eq_comm, List.append_eq_nil_iff] at hall
    exact hall.2
  have hfilter := filter_of_readable hreadable
  refine ⟨hall, ?_, ?_, ?_, fun environment henv => ?_⟩
  · rintro rfl
    refine ⟨fun address fresh clock => Node.start_of_valid hps address fresh clock, fun environment henv => ?_⟩
    rw [hchoose henv]
    rwa [faultless_iff.2 (hlogging rfl)] at hfilter
  · intro hne
    exact ⟨fun address fresh clock inRuntime => Node.start_of_invalid hps hne address fresh clock inRuntime,
      fun s address ops hhost => Simulation.run_refused hps hne hhost ops⟩
  · intro environment henv hnone
    rw [hchoose henv] at hnone ⊢
    cases hfault : c.loggingChecks.findSome? (·.fault? c) with
    | none =>
      rw [hfault] at hfilter
      exact absurd hfilter hnone
    | some e =>
      rw [hfault] at hfilter
      refine ⟨fun h => ?_, e, hfilter, head?_problems hfault⟩
      rw [faultless_iff.2 (hlogging h)] at hfault
      cases hfault
  · rw [hchoose henv]
    cases hfault : c.loggingChecks.findSome? (·.fault? c) with
    | none =>
      rw [hfault] at hfilter
      obtain ⟨f, hf⟩ := hfilter
      simp [hf]
    | some e =>
      rw [hfault] at hfilter
      simp [hfilter]

/-- a configuration with nothing wrong, and one in which each section has something wrong -/
theorem validation_suffices_both_ways :
    let good : Config := { logging := { directives := ["peerdeploy_cluster=debug"] } }
    let bad : Config :=
      { deployment := { networkTimeout := 0 }
        membership := { heartbeatTimeout := -1 }
        logging := { level := "loud", directives := ["peerdeploy_cluster=debug", "peer deploy", "=info"] } }
    (good.problems = .ok [] ∧
      (∃ n, (Node.start good "a:1" "x" default true).run = .ok (.ok n) ∧ n.checkInterval ≠ 0) ∧
      ∃ f, (Logging.Filter.choose [] good.logging).run = .ok (.ok f)) ∧
    bad.problems = .ok
      ["deployment.network_timeout_ms must be greater than zero",
        "membership.heartbeat_timeout_secs must be greater than zero",
        "logging.level: Invalid log level: loud",
        "logging.directives: Invalid filter directive \"=info\": invalid filter directive"] ∧
      (Node.start bad "a:1" "x" default true).run = .ok (.error (.configuration
        ("deployment.network_timeout_ms must be greater than zero; " ++
          "membership.heartbeat_timeout_secs must be greater than zero; " ++
          "logging.level: Invalid log level: loud; " ++
          "logging.directives: Invalid filter directive \"=info\": invalid filter directive"))) := by
  intro good bad
  obtain ⟨hreads, htidy, -, hgood⟩ := validation_suffices good
  obtain ⟨hreads', htidy', -, hbad⟩ := validation_suffices bad
  obtain ⟨ps, hps⟩ := hreads.2 (htidy (by decide))
  obtain ⟨ps', hps'⟩ := hreads'.2 (htidy' (by decide))
  obtain ⟨hnone, hvalid, -, -⟩ := hgood ps hps
  obtain ⟨hsome, -, hinvalid, -⟩ := hbad ps' hps'
  obtain rfl : ps = [] := by rw [hnone]; decide +kernel
  obtain ⟨hstarts, hfilter⟩ := hvalid rfl
  obtain ⟨n, hn, -, -, hperiod⟩ := hstarts "a:1" "x" default
  have hlist : bad.checks.filterMap (·.problem? bad) =
      ["deployment.network_timeout_ms must be greater than zero",
        "membership.heartbeat_timeout_secs must be greater than zero",
        "logging.level: Invalid log level: loud",
        "logging.directives: Invalid filter directive \"=info\": invalid filter directive"] := by decide +kernel
  rw [hlist] at hsome
  subst hsome
  refine ⟨⟨hps, ⟨n, hn, hperiod⟩, hfilter [] rfl⟩, hps', ?_⟩
  rw [(hinvalid (by simp)).1]
  exact congrArg (fun text => Except.ok (Except.error (Failure.configuration text))) (by decide +kernel)

end Config

end Redeploy
