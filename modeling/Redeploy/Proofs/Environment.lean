/-
Texts that come from the environment.

The value of a variable is a flag, an integer or a number if it can be one, also where a text is wanted. It is turned back
into a text then, in the usual form of what it was taken for (`retold`): `TRUE` becomes `true`, `007` becomes `7`, `1e3`
becomes `1000`. Every other value comes out as it went in, and so does one that has the usual form already. What has been
turned back can be taken for a flag or a number again, so a value that has its usual form or never needed one is not met by
another one: two nodes whose different identifiers become the same were both given flags or numbers.

Results:
- `toText?_setting`: what becomes of a value;
- `isGuessed_retold`, `retold_eq_empty_iff`: the usual form of a guess is a guess again, and no value vanishes;
- `retold_toString`: integers in the usual form stay;
- `load_alone`: the one variable decides the configuration;
- **`texts_retold`**: the node's identifier, the level and the log file from the environment;
- `node_id_renamed`: an identifier that is changed, and two that become one.
-/
import Redeploy.Config.Load
import Redeploy.Node
import Redeploy.Proofs.Decimals

namespace Redeploy

namespace Environment

/-- the value can be a flag or a number -/
def IsGuessed (v : String) : Prop := v.toLower = "true" ∨ v.toLower = "false" ∨ IsNumeral v

instance (v : String) : Decidable (IsGuessed v) := inferInstanceAs (Decidable (_ ∨ _ ∨ _))

/-- the integer that a value is, if it fits a signed word -/
def word? (v : String) : Option Int :=
  (intNumeral? v.toList).filter fun n => decide (Int64.minValue.toInt ≤ n ∧ n ≤ Int64.maxValue.toInt)

/-- the value in the usual form of what it is taken for -/
def retold (v : String) : String :=
  if v.toLower = "true" ∨ v.toLower = "false" then v.toLower
  else match word? v, Decimal.ofNumeral? v.toList with
    | some n, _ => toString n
    | none, some d => (Binary64.ofDecimal d).text
    | none, none => v

variable {v w : String}

theorem toText?_setting (v : String) : (setting v).toText? = some (retold v) := by
  unfold setting retold
  split
  · rename_i h
    simp [h, Setting.toText?]
  · rename_i h
    simp [h, Setting.toText?]
  · rename_i htrue hfalse
    rw [if_neg (by tauto), word?]
    cases intNumeral? v.toList with
    | none => cases Decimal.ofNumeral? v.toList <;> rfl
    | some n =>
      by_cases hfits : Int64.minValue.toInt ≤ n ∧ n ≤ Int64.maxValue.toInt
      · simp only [if_pos hfits, Option.filter_some, decide_eq_true hfits, if_true]
        rfl
      · simp only [if_neg hfits, Option.filter_some, decide_eq_false hfits, Bool.false_eq_true, if_false]
        cases Decimal.ofNumeral? v.toList <;> rfl

/-- what a value stands for replaces what was there -/
theorem merge_setting (old : Setting) (v : String) : old.merge (setting v) = setting v := by
  have htext := toText?_setting v
  generalize setting v = s at htext ⊢
  cases s with
  | table entries => cases htext
  | _ => rfl

theorem isNumeral_of_word? {n : Int} (h : word? v = some n) : IsNumeral v := by
  obtain ⟨hread, -⟩ := Option.filter_eq_some_iff.1 h
  exact ofNumeral?_of_intNumeral? (Option.isSome_of_eq_some hread)

theorem retold_of_not_guessed (h : ¬IsGuessed v) : retold v = v := by
  simp only [IsGuessed, not_or] at h
  obtain ⟨htrue, hfalse, hnumeral⟩ := h
  have hword : word? v = none := by
    rw [Option.eq_none_iff_forall_ne_some]
    exact fun n hn => hnumeral (isNumeral_of_word? hn)
  have hdecimal : Decimal.ofNumeral? v.toList = none := Option.not_isSome_iff_eq_none.1 hnumeral
  rw [retold, if_neg (by tauto), hword, hdecimal]

/-- what was taken for a flag or a number can be taken for one again -/
theorem isGuessed_retold (h : IsGuessed v) : IsGuessed (retold v) := by
  unfold retold
  split
  · rename_i hflag
    rcases hflag with htrue | hfalse
    · rw [htrue]
      decide +kernel
    · rw [hfalse]
      decide +kernel
  · split
    · rename_i n _ _
      refine .inr (.inr (ofNumeral?_of_intNumeral? ?_))
      rw [intNumeral?_toString]
      rfl
    · exact .inr (.inr (Binary64.isNumeral_text (Binary64.inRange_ofDecimal _)))
    · exact h

theorem retold_eq_empty_iff : retold v = "" ↔ v = "" := by
  constructor
  · intro hempty
    by_cases hguess : IsGuessed v
    · have hnone := isGuessed_retold hguess
      rw [hempty] at hnone
      exact absurd hnone (by decide +kernel)
    · rwa [retold_of_not_guessed hguess] at hempty
  · rintro rfl
    decide +kernel

/-- no integer is a word for a flag -/
theorem toLower_toString (n : Int) : (toString n).toLower ≠ "true" ∧ (toString n).toLower ≠ "false" := by
  have hfirst : ∃ c r, (toString n).toList = c :: r ∧ (c = '-' ∨ c.isDigit = true) := by
    cases n with
    | ofNat n =>
      have hdigits := digits_toDigits n
      obtain ⟨c, r, hcr⟩ := List.exists_cons_of_ne_nil hdigits.1
      exact ⟨c, r, (toList_toString_ofNat n).trans hcr, .inr (hdigits.2 c (by simp [hcr]))⟩
    | negSucc n => exact ⟨_, _, toList_toString_negSucc n, .inl rfl⟩
  obtain ⟨c, r, hcr, hc⟩ := hfirst
  have hlower : (toString n).toLower.toList = c.toLower :: r.map Char.toLower := by
    calc (toString n).toLower.toList
      _ = (toString n).toList.map Char.toLower := String.toList_map
      _ = c.toLower :: r.map Char.toLower := by rw [hcr, List.map_cons]
  have hsame : c.toLower = c := by
    rcases hc with rfl | hdigit
    · rfl
    · unfold Char.toLower
      grind [Char.isDigit]
  have hcapital : c ≠ 't' ∧ c ≠ 'f' := by
    rcases hc with rfl | hdigit
    · decide
    · constructor
      · rintro rfl
        cases hdigit
      · rintro rfl
        cases hdigit
  rw [hsame] at hlower
  constructor
  · intro heq
    rw [heq] at hlower
    exact hcapital.1 (List.cons.inj hlower).1.symm
  · intro heq
    rw [heq] at hlower
    exact hcapital.2 (List.cons.inj hlower).1.symm

/-- an integer in its usual form stays -/
theorem retold_toString {n : Int} (hlow : Int64.minValue.toInt ≤ n) (hhigh : n ≤ Int64.maxValue.toInt) :
    retold (toString n) = toString n := by
  have hword : word? (toString n) = some n := by
    rw [word?, intNumeral?_toString, Option.filter_some, if_pos (decide_eq_true ⟨hlow, hhigh⟩)]
  obtain ⟨htrue, hfalse⟩ := toLower_toString n
  rw [retold, if_neg (by tauto), hword]

/-- two values that come out alike were the same value, or both could be flags or numbers -/
theorem isGuessed_of_retold_eq (hne : v ≠ w) (h : retold v = retold w) : IsGuessed v ∧ IsGuessed w := by
  by_cases hv : IsGuessed v
  · by_cases hw : IsGuessed w
    · exact ⟨hv, hw⟩
    · rw [retold_of_not_guessed hw] at h
      exact absurd (h ▸ isGuessed_retold hv) hw
  · by_cases hw : IsGuessed w
    · rw [retold_of_not_guessed hv] at h
      exact absurd (h ▸ isGuessed_retold hw) hv
    · rw [retold_of_not_guessed hv, retold_of_not_guessed hw] at h
      exact absurd h hne

/-- of the variables that count there is only this one -/
def Alone (environment : List (String × String)) (name value : String) : Prop :=
  environment.filter (fun e => (key? e.1).isSome) = [(name, value)]

instance (environment : List (String × String)) (name value : String) : Decidable (Alone environment name value) :=
  inferInstanceAs (Decidable (_ = _))

theorem settings_alone {environment : List (String × String)} {name key value : String}
    (h : Alone environment name value) (hkey : key? name = some key) :
    settings environment = [(key, setting value)] := by
  have hcounted : settings environment = settings (environment.filter fun e => (key? e.1).isSome) := by
    unfold settings
    rw [List.filterMap_filter]
    refine List.filterMap_congr fun e _ => ?_
    obtain ⟨name, value⟩ := e
    cases hcounts : key? name <;> simp [hcounts]
  rw [hcounted, h]
  simp [settings, hkey]

end Environment

namespace Config

open Environment

theorem load_alone {environment : List (String × String)} {name key value heading field : String}
    (h : Alone environment name value) (hkey : key? name = some key)
    (hpath : Setting.path key = [.key heading, .key field]) :
    load none environment = ofSetting (.table [(heading, .table [(field, setting value)])]) := by
  simp [load, settings_alone h hkey, Setting.override, hpath, Setting.Step.isReachable, Setting.change, Setting.entries,
    Setting.putEntry, merge_setting, pure, Except.pure, bind, Except.bind]

section

variable {s : Setting} {t : String}

theorem text_of_toText? (h : s.toText? = some t) (key : String) : text key s = .ok t := by
  rw [text, h]
  rfl

theorem optionalText_of_toText? (h : s.toText? = some t) (key : String) : optionalText key s = .ok (some t) := by
  have hread := text_of_toText? h key
  cases s with
  | nothing => cases h
  | _ => simp [optionalText, hread, Except.map]

theorem ofSetting_nodeId (h : s.toText? = some t) :
    ofSetting (.table [("membership", .table [("node_id", s)])]) = .ok { membership := { nodeId := t } } := by
  simp [ofSetting, Setting.entries, Config.field, membershipOf, fields, List.lookup_cons, List.lookup_nil,
    text_of_toText? h, bind, Except.bind, pure, Except.pure]

theorem ofSetting_level (h : s.toText? = some t) :
    ofSetting (.table [("logging", .table [("level", s)])]) = .ok { logging := { level := t } } := by
  simp [ofSetting, Setting.entries, Config.field, loggingOf, fields, List.lookup_cons, List.lookup_nil,
    text_of_toText? h, bind, Except.bind, pure, Except.pure]

theorem ofSetting_filePath (h : s.toText? = some t) :
    ofSetting (.table [("logging", .table [("file_path", s)])]) = .ok { logging := { filePath := some t } } := by
  simp [ofSetting, Setting.entries, Config.field, loggingOf, fields, List.lookup_cons, List.lookup_nil,
    optionalText_of_toText? h, bind, Except.bind, pure, Except.pure]

end

variable {environment : List (String × String)} {value : String}

theorem load_nodeId (h : Alone environment "PEERDEPLOY_MEMBERSHIP__NODE_ID" value) :
    load none environment = .ok { membership := { nodeId := retold value } } := by
  have hpath : Setting.path "membership.node_id" = [.key "membership", .key "node_id"] := by decide +kernel
  rw [load_alone h (by decide +kernel) hpath]
  exact ofSetting_nodeId (toText?_setting value)

theorem load_level (h : Alone environment "PEERDEPLOY_LOGGING__LEVEL" value) :
    load none environment = .ok { logging := { level := retold value } } := by
  have hpath : Setting.path "logging.level" = [.key "logging", .key "level"] := by decide +kernel
  rw [load_alone h (by decide +kernel) hpath]
  exact ofSetting_level (toText?_setting value)

theorem load_filePath (h : Alone environment "PEERDEPLOY_LOGGING__FILE_PATH" value) :
    load none environment = .ok { logging := { filePath := some (retold value) } } := by
  have hpath : Setting.path "logging.file_path" = [.key "logging", .key "file_path"] := by decide +kernel
  rw [load_alone h (by decide +kernel) hpath]
  exact ofSetting_filePath (toText?_setting value)

end Config

namespace Environment

/-- a node that is given an identifier has what has become of it -/
theorem self_retold {v : String} (hv : v ≠ "") (fresh : String) :
    (Membership.Directory.ofConfig { nodeId := retold v } fresh).self = ⟨retold v⟩ := by
  have hfull : (retold v).isEmpty = false := by
    rw [Bool.eq_false_iff]
    intro hempty
    exact hv (retold_eq_empty_iff.1 (String.isEmpty_iff.1 hempty))
  simp [Membership.Directory.ofConfig, hfull]

/-- **texts from the environment**: whatever the variable says, the configuration is loaded, and the identifier, the level or
the file has what the value is turned back into. That is the value itself unless it can be a flag or a number, and also if
it has their usual form already. Two nodes that are given different identifiers have the same one only if both identifiers
can be flags or numbers and have the same usual form. -/
theorem texts_retold (v : String) :
    (∀ environment, Alone environment "PEERDEPLOY_MEMBERSHIP__NODE_ID" v →
      Config.load none environment = .ok { membership := { nodeId := retold v } }) ∧
    (∀ environment, Alone environment "PEERDEPLOY_LOGGING__LEVEL" v →
      Config.load none environment = .ok { logging := { level := retold v } }) ∧
    (∀ environment, Alone environment "PEERDEPLOY_LOGGING__FILE_PATH" v →
      Config.load none environment = .ok { logging := { filePath := some (retold v) } }) ∧
    (¬IsGuessed v → retold v = v) ∧
    (∀ n : Int, Int64.minValue.toInt ≤ n → n ≤ Int64.maxValue.toInt → v = toString n → retold v = v) ∧
    (v = "true" ∨ v = "false" → retold v = v) ∧
    ∀ w environment environment' c c' fresh fresh', Alone environment "PEERDEPLOY_MEMBERSHIP__NODE_ID" v →
      Alone environment' "PEERDEPLOY_MEMBERSHIP__NODE_ID" w → Config.load none environment = .ok c →
      Config.load none environment' = .ok c' → v ≠ "" → w ≠ "" → v ≠ w →
      (Membership.Directory.ofConfig c.membership fresh).self = (Membership.Directory.ofConfig c'.membership fresh').self →
      IsGuessed v ∧ IsGuessed w ∧ retold v = retold w := by
  refine ⟨fun _ => Config.load_nodeId, fun _ => Config.load_level, fun _ => Config.load_filePath, retold_of_not_guessed,
    ?_, ?_, ?_⟩
  · rintro n hlow hhigh rfl
    exact retold_toString hlow hhigh
  · rintro (rfl | rfl)
    · decide +kernel
    · decide +kernel
  · intro w environment environment' c c' fresh fresh' hv hw hc hc' hnonempty hnonempty' hne hself
    obtain rfl := Except.ok.inj (hc.symm.trans (Config.load_nodeId hv))
    obtain rfl := Except.ok.inj (hc'.symm.trans (Config.load_nodeId hw))
    rw [self_retold hnonempty, self_retold hnonempty'] at hself
    have hretold : retold v = retold w := congrArg MemberId.text hself
    obtain ⟨hguess, hguess'⟩ := isGuessed_of_retold_eq hne hretold
    exact ⟨hguess, hguess', hretold⟩

/-- among other variables, an identifier that is a name comes out as it is, and one that is a number in its usual form -/
theorem node_id_kept :
    let given (v : String) := [("PATH", "/bin"), ("PEERDEPLOY_MEMBERSHIP__NODE_ID", v)]
    Alone (given "node-07") "PEERDEPLOY_MEMBERSHIP__NODE_ID" "node-07" ∧
      Config.load none (given "node-07") = .ok { membership := { nodeId := "node-07" } } ∧
      Config.load none (given "1e3") = .ok { membership := { nodeId := "1000" } } := by
  intro given
  have hname : Alone (given "node-07") "PEERDEPLOY_MEMBERSHIP__NODE_ID" "node-07" := by decide +kernel
  have hnumber : Alone (given "1e3") "PEERDEPLOY_MEMBERSHIP__NODE_ID" "1e3" := by decide +kernel
  obtain ⟨hload, -, -, hkept, -⟩ := texts_retold "node-07"
  refine ⟨hname, ?_, ?_⟩
  · rw [hload _ hname, hkept (by decide +kernel)]
  · have hthousand : retold "1e3" = "1000" := by decide +kernel
    rw [(texts_retold "1e3").1 _ hnumber, hthousand]

/-- the identifiers `007` and `7` are different, and both nodes are called `7` -/
theorem node_id_renamed :
    ¬(∃ c, Config.load none [("PEERDEPLOY_MEMBERSHIP__NODE_ID", "007")] = .ok c ∧ c.membership.nodeId = "007") ∧
    ∃ c c', Config.load none [("PEERDEPLOY_MEMBERSHIP__NODE_ID", "007")] = .ok c ∧
      Config.load none [("PEERDEPLOY_MEMBERSHIP__NODE_ID", "7")] = .ok c' ∧
      ∀ fresh fresh', (Membership.Directory.ofConfig c.membership fresh).self =
        (Membership.Directory.ofConfig c'.membership fresh').self := by
  have hseven : retold "7" = "7" := by decide +kernel
  have hzeros : retold "007" = "7" := by decide +kernel
  have hload : Config.load none [("PEERDEPLOY_MEMBERSHIP__NODE_ID", "007")] = .ok { membership := { nodeId := "7" } } := by
    rw [Config.load_nodeId (show Alone _ _ "007" by decide +kernel), hzeros]
  have hload' : Config.load none [("PEERDEPLOY_MEMBERSHIP__NODE_ID", "7")] = .ok { membership := { nodeId := "7" } } := by
    rw [Config.load_nodeId (show Alone _ _ "7" by decide +kernel), hseven]
  constructor
  · rintro ⟨c, hc, hverbatim⟩
    obtain rfl := Except.ok.inj (hload.symm.trans hc)
    exact absurd hverbatim (by decide)
  · exact ⟨_, _, hload, hload', fun _ _ => rfl⟩

end Environment

end Redeploy
