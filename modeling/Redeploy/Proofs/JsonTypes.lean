/-
The values of this library as JSON, written and read back.

What is written of a structure has its fields in order, each once, so reading finds all of them (`readFields_object`).
That each field is then read as it was written is a matter of its type: texts and identifiers always are, numbers
because they come from a word, a time if its text stands for it, and a map because no name in it repeats. A timestamp
need not be one that its own text stands for (a year beyond those of the calendar, say), which is why it is a premise.

An event says in its member `type` which variant it is. The name there is made from the name of the variant, the
reader has a table of names, and so has the kind by which subscribers and the log know the event. The three agree.

Results:
- `ofJson_toJson`, for each type: the value that was written is read back;
- `toJson_plain`, for each type: what is written can be read from its text;
- `type_toJson`: the tag of an event is its kind;
- `kind_of_type`: an object with a tag is read as an event of that kind, or not at all;
- **`json_round_trip`**: all of it together.
-/
import Redeploy.Json.Codec
import Redeploy.Proofs.JsonText

namespace Redeploy

namespace Json

variable {α β : Type}

/-! ## Fields -/

@[simp] theorem ok_bind (a : α) (f : α → Read β) : ((.ok a : Read α) >>= f) = f a := rfl

@[simp] theorem pure_eq_ok (a : α) : (pure a : Read α) = .ok a := rfl

/-- what was read in two steps -/
theorem bind_eq_ok {x : Read α} {f : α → Read β} {b : β} (h : (x >>= f) = .ok b) : ∃ a, x = .ok a ∧ f a = .ok b := by
  cases x with
  | error e => cases h
  | ok a => exact ⟨a, rfl, h⟩

@[simp] theorem required_cons (name key : String) (read : Value → Read α) (v : Value) (fields : List (String × Value)) :
    required name read ((key, v) :: fields) = if name = key then read v else required name read fields := by
  by_cases h : name = key
  · simp [required, h]
  · have hne : (name == key) = false := by simpa using h
    simp [required, List.lookup_cons, h, hne]

@[simp] theorem optional_cons (name key : String) (a : α) (read : Value → Read α) (v : Value)
    (fields : List (String × Value)) :
    optional name a read ((key, v) :: fields) = if name = key then read v else optional name a read fields := by
  by_cases h : name = key
  · simp [Json.optional, h]
  · have hne : (name == key) = false := by simpa using h
    simp [Json.optional, List.lookup_cons, h, hne]

/-- an object with the fields of a structure, each once and in order -/
theorem readFields_object {what : String} {names : List String} {members : List (String × Value)}
    (hnames : members.map Prod.fst = names) (hnodup : names.Nodup) :
    readFields what names (.object members) = .ok members := by
  subst hnames
  have hknown : members.filter (fun m => (members.map Prod.fst).contains m.1) = members := by
    rw [List.filter_eq_self]
    intro m hm
    simpa using ⟨m.2, hm⟩
  have hnone : ((members.map Prod.fst).find? fun n => (members.filter fun m => m.1 == n).length > 1) = none := by
    rw [List.find?_eq_none]
    intro n _
    have hcount : (members.map Prod.fst).count n = (members.filter fun m => m.1 == n).length := by
      rw [List.count, List.countP_map, List.countP_eq_length_filter]
      rfl
    have honce := List.nodup_iff_count_le_one.1 hnodup n
    simp only [decide_eq_true_eq]
    omega
  simp only [readFields, hknown, hnone]

theorem lookup_eq (ms : List (String × Value)) (name : String) :
    ms.lookup name = ((ms.filter (·.1 == name)).head?).map Prod.snd := by
  induction ms with
  | nil => rfl
  | cons m ms ih =>
    obtain ⟨k, v⟩ := m
    by_cases hk : k = name
    · simp [hk]
    · have hk' : (name == k) = false := by simpa using Ne.symm hk
      simp [List.lookup_cons, hk, hk', ih]

/-- the last member of a name -/
theorem get?_object (members : List (String × Value)) (name : String) :
    (Value.object members).get? name = ((members.filter (·.1 == name)).getLast?).map Prod.snd := by
  rw [Value.get?, lookup_eq, List.filter_reverse, List.head?_reverse]

/-- what is read for a field is the member of its name, which is the only one -/
theorem lookup_of_readFields {what name : String} {names : List String} {members fields : List (String × Value)}
    (h : readFields what names (.object members) = .ok fields) (hname : name ∈ names) :
    fields.lookup name = (Value.object members).get? name := by
  simp only [readFields] at h
  split at h
  · cases h
  · rename_i honce
    obtain rfl := Except.ok.inj h
    have hsame : (members.filter fun m => names.contains m.1).filter (·.1 == name) = members.filter (·.1 == name) := by
      rw [List.filter_filter]
      apply List.filter_congr
      intro m _
      by_cases hm : m.1 = name <;> simp [hm, hname]
    have hlength : (members.filter (·.1 == name)).length ≤ 1 := by
      have hnot := List.find?_eq_none.1 honce name hname
      rw [hsame] at hnot
      simpa using hnot
    rw [lookup_eq, get?_object, hsame]
    cases hms : members.filter (·.1 == name) with
    | nil => rfl
    | cons m ms =>
      rw [hms, List.length_cons] at hlength
      obtain rfl : ms = [] := List.length_eq_zero_iff.1 (by omega)
      rfl

@[simp] theorem readString_string (s : String) : readString (.string s) = .ok s := rfl

@[simp] theorem readUInt64_toNat (n : UInt64) : readUInt64 (.int n.toNat) = .ok n := by
  simp [readUInt64]

@[simp] theorem readInt64_toInt (n : Int64) : readInt64 (.int n.toInt) = .ok n := by
  have hle := n.toInt_le
  simp [readInt64, hle]

/-- a map in which no name repeats, after what was read before -/
theorem foldlM_readMap (ms read : List (String × String)) (h : ((read ++ ms).map Prod.fst).Nodup) :
    (ms.map fun (k, s) => (k, Value.string s)).foldlM (fun ms (k, v) => do
      let s ← readString v
      pure (ms.filter (·.1 != k) ++ [(k, s)])) read = (.ok (read ++ ms) : Read _) := by
  induction ms generalizing read with
  | nil => simp [pure, Except.pure]
  | cons m ms ih =>
    obtain ⟨k, s⟩ := m
    have hfresh : read.filter (·.1 != k) = read := by
      rw [List.filter_eq_self]
      intro m hm
      rw [List.map_append, List.nodup_append] at h
      have hne : m.1 ≠ k := h.2.2 m.1 (List.mem_map_of_mem hm) k (by simp)
      simpa using hne
    have hrest := ih (read ++ [(k, s)]) (by simpa using h)
    rw [List.append_assoc, List.singleton_append] at hrest
    simp only [List.map_cons, List.foldlM_cons, readString_string, bind, Except.bind, pure, Except.pure, hfresh]
    exact hrest

theorem readMap_object {ms : List (String × String)} (h : (ms.map Prod.fst).Nodup) :
    readMap (.object (ms.map fun (k, s) => (k, .string s))) = .ok ms :=
  foldlM_readMap ms [] h

theorem readList_array (ss : List String) : readList readString (.array (ss.map .string)) = .ok ss := by
  rw [readList]
  induction ss with
  | nil => rfl
  | cons s ss ih => simp [List.mapM_cons, ih, bind, Except.bind, pure, Except.pure]

theorem readOption_writeOption {write : α → Value} {read : Value → Read α} {o : Option α}
    (hread : ∀ a, read (write a) = .ok a) (hnull : ∀ a, write a ≠ .null) :
    readOption read (writeOption write o) = .ok o := by
  cases o with
  | none => rfl
  | some a =>
    have hsome : readOption read (write a) = (read (write a)).map some := by
      cases hw : write a with
      | null => exact absurd hw (hnull a)
      | _ => rfl
    rw [writeOption, hsome, hread]
    rfl

/-! ## What can be read from a text -/

@[simp] theorem plain_null : Value.null.Plain := .null

@[simp] theorem plain_string (s : String) : (Value.string s).Plain := .string s

@[simp] theorem plain_toNat (n : UInt64) : (Value.int n.toNat).Plain := by
  have hlt := n.toNat_lt
  exact .int (by omega) (by omega)

@[simp] theorem plain_toInt (n : Int64) : (Value.int n.toInt).Plain := by
  have hle := n.le_toInt
  have hlt := n.toInt_lt
  exact .int (by omega) (by omega)

@[simp] theorem plain_array {items : List Value} : (Value.array items).Plain ↔ ∀ v ∈ items, v.Plain := by
  constructor
  · rintro (_ | _ | _ | _ | h)
    exact h
  · exact .array

@[simp] theorem plain_object {members : List (String × Value)} :
    (Value.object members).Plain ↔ ∀ m ∈ members, m.2.Plain := by
  constructor
  · rintro (_ | _ | _ | _ | _ | h) ⟨k, v⟩ hm
    exact h k v hm
  · intro h
    exact .object fun k v hm => h (k, v) hm

theorem plain_map (ms : List (String × String)) : (Value.object (ms.map fun (k, s) => (k, .string s))).Plain := by
  rw [plain_object]
  intro m hm
  obtain ⟨⟨k, s⟩, _, rfl⟩ := List.mem_map.1 hm
  exact .string s

theorem plain_writeOption {write : α → Value} {o : Option α} (h : ∀ a, (write a).Plain) :
    (writeOption write o).Plain := by
  cases o with
  | none => exact .null
  | some a => exact h a

end Json

open Json

/-! ## Identifiers and words -/

@[simp] theorem MemberId.ofJson_toJson (m : MemberId) : MemberId.ofJson m.toJson = .ok m := rfl

@[simp] theorem DeploymentId.ofJson_toJson (d : DeploymentId) : DeploymentId.ofJson d.toJson = .ok d := rfl

@[simp] theorem LogFormat.ofJson_toJson (f : LogFormat) : LogFormat.ofJson f.toJson = .ok f := by
  cases f <;> rfl

@[simp] theorem MemberId.toJson_plain (m : MemberId) : m.toJson.Plain := .string _

@[simp] theorem DeploymentId.toJson_plain (d : DeploymentId) : d.toJson.Plain := .string _

@[simp] theorem LogFormat.toJson_plain (f : LogFormat) : f.toJson.Plain := .string _

namespace Timestamp

/-- the text of the time stands for it -/
def IsReadable (t : Timestamp) : Prop := parse? t.text = some t

variable {t : Timestamp}

theorem ofJson_toJson (h : t.IsReadable) : Timestamp.ofJson t.toJson = .ok t := by
  have hparse : parse? t.text = some t := h
  simp only [Timestamp.ofJson, toJson, readString_string, bind, Except.bind, hparse]

@[simp] theorem toJson_plain (t : Timestamp) : t.toJson.Plain := .string _

end Timestamp

/-! ## Members of the cluster -/

namespace Membership

theorem FencingToken.ofJson_toJson (t : FencingToken) : FencingToken.ofJson t.toJson = .ok t := by
  have hfields : readFields "FencingToken" ["node_id", "epoch"] t.toJson =
      .ok [("node_id", t.node.toJson), ("epoch", .int t.epoch.toNat)] := readFields_object rfl (by decide)
  rw [ofJson, hfields]
  simp

theorem FencingToken.toJson_plain (t : FencingToken) : t.toJson.Plain := by
  simp [toJson]

theorem Node.ofJson_toJson {n : Node} (ht : n.lastHeartbeat.IsReadable) (hm : (n.metadata.map Prod.fst).Nodup) :
    Node.ofJson n.toJson = .ok n := by
  have hfields : readFields "NodeInfo" ["node_id", "address", "last_heartbeat", "metadata", "epoch"] n.toJson =
      .ok [("node_id", n.id.toJson), ("address", .string n.address), ("last_heartbeat", n.lastHeartbeat.toJson),
        ("metadata", .object (n.metadata.map fun (k, s) => (k, .string s))), ("epoch", .int n.epoch.toNat)] :=
    readFields_object rfl (by decide)
  rw [ofJson, hfields]
  simp only [ok_bind, required_cons, optional_cons, String.reduceEq, if_true, if_false, MemberId.ofJson_toJson,
    readString_string, Timestamp.ofJson_toJson ht, readMap_object hm, readUInt64_toNat, pure_eq_ok]

theorem Node.toJson_plain (n : Node) : n.toJson.Plain := by
  rw [toJson, plain_object]
  simp only [List.forall_mem_cons]
  exact ⟨n.id.toJson_plain, .string _, n.lastHeartbeat.toJson_plain, plain_map _, plain_toNat _, by simp⟩

namespace Event

/-- the name of the variant in JSON is the name of the kind -/
theorem snakeCase_variant (e : Event) : snakeCase e.variant = e.kind := by
  cases e <;> simp [snakeCase, variant, kind]

theorem ofJson_toJson (e : Event) : Event.ofJson e.toJson = .ok e := by
  have hfields : readFields "MembershipEvent" ["type", "node_id"] e.toJson =
      .ok [("type", .string (snakeCase e.variant)), ("node_id", e.member.toJson)] := readFields_object rfl (by decide)
  rw [toJson, snakeCase_variant] at hfields ⊢
  simp only [ofJson, hfields, ok_bind, required_cons, String.reduceEq, if_true, if_false, MemberId.ofJson_toJson]
  cases e <;> rfl

theorem toJson_plain (e : Event) : e.toJson.Plain := by
  simp [toJson]

/-- the tag of an event in JSON is its kind -/
theorem type_toJson (e : Event) : e.toJson.get? "type" = some (.string e.kind) := by
  rw [toJson, get?_object, snakeCase_variant]
  rfl

/-- events of one kind are of one variant -/
theorem variant_of_kind {e e' : Event} (h : e.kind = e'.kind) : e.variant = e'.variant := by
  cases e <;> cases e' <;> simp [kind, variant] at h ⊢

theorem kind_of_ofKind? {k : String} {make : MemberId → Event} (h : ofKind? k = some make) (m : MemberId) :
    (make m).kind = k := by
  unfold ofKind? at h
  split at h
  all_goals cases h
  all_goals rfl

/-- an object with a tag is read as an event of that kind, or not at all -/
theorem kind_of_type {v : Value} {k : String} {e : Event} (htype : v.get? "type" = some (.string k))
    (h : Event.ofJson v = .ok e) : e.kind = k := by
  cases v with
  | object members =>
    obtain ⟨fields, hfields, h⟩ := bind_eq_ok h
    obtain ⟨make, hmake, h⟩ := bind_eq_ok h
    obtain ⟨m, _, h⟩ := bind_eq_ok h
    have hlookup : fields.lookup "type" = some (.string k) :=
      (lookup_of_readFields hfields (by decide)).trans htype
    obtain rfl : make m = e := Except.ok.inj h
    simp only [required, hlookup, readVariant, readVariant.pick] at hmake
    split at hmake
    · rename_i make' hkind
      obtain rfl := Except.ok.inj hmake
      exact kind_of_ofKind? hkind m
    · cases hmake
  | _ => cases htype

end Event

end Membership

/-! ## Deployment events -/

namespace DeploymentEvent

/-- the times that the event gives -/
def timestamps : DeploymentEvent → List Timestamp
  | deployed _ t => [t]
  | undeployed _ _ deployedAt t => [deployedAt, t]

theorem snakeCase_variant (e : DeploymentEvent) : snakeCase e.variant = e.kind := by
  cases e with
  | deployed w t =>
    obtain ⟨id, sender, a, isTask⟩ := w
    cases isTask <;> simp [snakeCase, variant, kind]
  | undeployed w m d t =>
    obtain ⟨id, sender, a, isTask⟩ := w
    cases isTask <;> simp [snakeCase, variant, kind]

theorem toJson_plain (e : DeploymentEvent) : e.toJson.Plain := by
  cases e with
  | deployed w t => simp [toJson]
  | undeployed w m d t => simp [toJson, plain_writeOption]

theorem toJson_isSound (e : DeploymentEvent) : e.toJson.isSound = true := by
  cases e with
  | deployed w t => rfl
  | undeployed w m d t => cases m <;> rfl

/-- the members of an event that come after its tag -/
def fields : DeploymentEvent → List (String × Value)
  | deployed w t => [("deployment_id", w.id.toJson), ("sender_id", w.sender.toJson), ("alias", .string w.moduleAlias),
      ("timestamp", t.toJson)]
  | undeployed w m d t => [("deployment_id", w.id.toJson), ("sender_id", w.sender.toJson),
      ("alias", .string w.moduleAlias), ("departed_node_id", writeOption MemberId.toJson m), ("deployed_at", d.toJson),
      ("timestamp", t.toJson)]

theorem toJson_eq (e : DeploymentEvent) : e.toJson = .object (("type", .string e.kind) :: e.fields) := by
  rw [toJson.eq_def, snakeCase_variant]
  cases e <;> rfl

theorem type_not_mem_fields (e : DeploymentEvent) : ∀ m ∈ e.fields, m.1 ≠ "type" := by
  cases e <;> simp [fields]

theorem filter_type_fields (e : DeploymentEvent) : e.fields.filter (·.1 == "type") = [] := by
  rw [List.filter_eq_nil_iff]
  intro m hm
  simpa using type_not_mem_fields e m hm

theorem readDeployed_fields {w : Deployed} {t : Timestamp} (ht : t.IsReadable) :
    readDeployed w.isTask (.object (deployed w t).fields) = .ok (.deployed w t) := by
  have hfields : readFields "DeploymentEvent" deployedFields (.object (deployed w t).fields) =
      .ok (deployed w t).fields := readFields_object rfl (by decide)
  rw [readDeployed, hfields]
  simp [fields, readWhat, Timestamp.ofJson_toJson ht]

theorem readUndeployed_fields {w : Deployed} {m : Option MemberId} {d t : Timestamp} (hd : d.IsReadable)
    (ht : t.IsReadable) :
    readUndeployed w.isTask (.object (undeployed w m d t).fields) = .ok (.undeployed w m d t) := by
  have hfields : readFields "DeploymentEvent" undeployedFields (.object (undeployed w m d t).fields) =
      .ok (undeployed w m d t).fields := readFields_object rfl (by decide)
  have hdeparted : readOption MemberId.ofJson (writeOption MemberId.toJson m) = .ok m :=
    readOption_writeOption MemberId.ofJson_toJson (fun _ => nofun)
  rw [readUndeployed, hfields]
  simp [fields, readWhat, Timestamp.ofJson_toJson ht, Timestamp.ofJson_toJson hd, hdeparted]

theorem readKind_deployed (w : Deployed) (t : Timestamp) (rest : Value) :
    readKind (.string (deployed w t).kind) rest = readDeployed w.isTask rest := by
  rw [kind]
  cases w.isTask <;> rfl

theorem readKind_undeployed (w : Deployed) (m : Option MemberId) (d t : Timestamp) (rest : Value) :
    readKind (.string (undeployed w m d t).kind) rest = readUndeployed w.isTask rest := by
  rw [kind]
  cases w.isTask <;> rfl

/-- the reader of its kind reads an event -/
theorem readKind_fields {e : DeploymentEvent} (h : ∀ t ∈ e.timestamps, t.IsReadable) :
    readKind (.string e.kind) (.object e.fields) = .ok e := by
  cases e with
  | deployed w t =>
    have ht : t.IsReadable := h t (by simp [timestamps])
    rw [readKind_deployed, readDeployed_fields ht]
  | undeployed w m d t =>
    have hd : d.IsReadable := h d (by simp [timestamps])
    have ht : t.IsReadable := h t (by simp [timestamps])
    rw [readKind_undeployed, readUndeployed_fields hd ht]

theorem ofJson_toJson {e : DeploymentEvent} (h : ∀ t ∈ e.timestamps, t.IsReadable) :
    DeploymentEvent.ofJson e.toJson = .ok e := by
  have htype : (("type", Value.string e.kind) :: e.fields).filter (·.1 == "type") = [("type", .string e.kind)] := by
    simp [filter_type_fields]
  have hrest : (("type", Value.string e.kind) :: e.fields).filter (·.1 != "type") = e.fields := by
    have hall : e.fields.filter (·.1 != "type") = e.fields := by
      rw [List.filter_eq_self]
      intro m hm
      simpa using type_not_mem_fields e m hm
    simp [hall]
  have hsound := toJson_isSound e
  rw [toJson_eq] at hsound ⊢
  simp only [ofJson, hsound, Bool.not_true, Bool.false_eq_true, if_false, htype, hrest]
  exact readKind_fields h

/-! ### Tags -/

/-- the tag of an event in JSON is its kind -/
theorem type_toJson (e : DeploymentEvent) : e.toJson.get? "type" = some (.string e.kind) := by
  rw [toJson_eq, get?_object]
  simp [filter_type_fields]

theorem eq_of_readDeployed {isTask : Bool} {v : Value} {e : DeploymentEvent} (h : readDeployed isTask v = .ok e) :
    ∃ w t, e = .deployed w t ∧ w.isTask = isTask := by
  obtain ⟨fields, _, h⟩ := bind_eq_ok h
  obtain ⟨w, hw, h⟩ := bind_eq_ok h
  obtain ⟨t, _, h⟩ := bind_eq_ok h
  obtain ⟨id, _, hw⟩ := bind_eq_ok hw
  obtain ⟨sender, _, hw⟩ := bind_eq_ok hw
  obtain ⟨a, _, hw⟩ := bind_eq_ok hw
  cases h
  cases hw
  exact ⟨_, _, rfl, rfl⟩

theorem eq_of_readUndeployed {isTask : Bool} {v : Value} {e : DeploymentEvent} (h : readUndeployed isTask v = .ok e) :
    ∃ w m d t, e = .undeployed w m d t ∧ w.isTask = isTask := by
  obtain ⟨fields, _, h⟩ := bind_eq_ok h
  obtain ⟨w, hw, h⟩ := bind_eq_ok h
  obtain ⟨m, _, h⟩ := bind_eq_ok h
  obtain ⟨d, _, h⟩ := bind_eq_ok h
  obtain ⟨t, _, h⟩ := bind_eq_ok h
  obtain ⟨id, _, hw⟩ := bind_eq_ok hw
  obtain ⟨sender, _, hw⟩ := bind_eq_ok hw
  obtain ⟨a, _, hw⟩ := bind_eq_ok hw
  cases h
  cases hw
  exact ⟨_, _, _, _, rfl, rfl⟩

theorem kind_of_readKind {k : String} {rest : Value} {e : DeploymentEvent} (h : readKind (.string k) rest = .ok e) :
    e.kind = k := by
  simp only [readKind, readString_string, ok_bind] at h
  split at h
  · obtain ⟨w, t, rfl, htask⟩ := eq_of_readDeployed h
    simp [kind, htask]
  · obtain ⟨w, t, rfl, htask⟩ := eq_of_readDeployed h
    simp [kind, htask]
  · obtain ⟨w, m, d, t, rfl, htask⟩ := eq_of_readUndeployed h
    simp [kind, htask]
  · obtain ⟨w, m, d, t, rfl, htask⟩ := eq_of_readUndeployed h
    simp [kind, htask]
  · cases h

/-- an object with a tag is read as an event of that kind, or not at all -/
theorem kind_of_type {v : Value} {k : String} {e : DeploymentEvent} (htype : v.get? "type" = some (.string k))
    (h : DeploymentEvent.ofJson v = .ok e) : e.kind = k := by
  cases v with
  | object members =>
    rw [get?_object] at htype
    rw [ofJson] at h
    split at h
    · cases h
    · split at h
      · cases h
      · rename_i name kind hfilter
        rw [hfilter] at htype
        obtain rfl : kind = .string k := by simpa using htype
        exact kind_of_readKind h
      · cases h
  | _ => cases htype

/-- events of one kind are of one variant -/
theorem variant_of_kind {e e' : DeploymentEvent} (h : e.kind = e'.kind) : e.variant = e'.variant := by
  cases e <;> cases e' <;> simp only [kind, variant] at h ⊢ <;> split_ifs at h ⊢ <;> first | rfl | exact absurd h (by decide)

end DeploymentEvent

/-! ## Configuration -/

theorem DeploymentConfig.ofJson_toJson (c : DeploymentConfig) : DeploymentConfig.ofJson c.toJson = .ok c := by
  have hfields : readFields "DeploymentConfig" ["network_timeout_ms"] c.toJson =
      .ok [("network_timeout_ms", .int c.networkTimeout.toNat)] := readFields_object rfl (by decide)
  rw [ofJson, hfields]
  simp

theorem MembershipConfig.ofJson_toJson (c : MembershipConfig) : MembershipConfig.ofJson c.toJson = .ok c := by
  have hfields : readFields "MembershipConfig" ["node_id", "heartbeat_timeout_secs", "check_interval_secs"] c.toJson =
      .ok [("node_id", .string c.nodeId), ("heartbeat_timeout_secs", .int c.heartbeatTimeout.toInt),
        ("check_interval_secs", .int c.checkInterval.toNat)] := readFields_object rfl (by decide)
  rw [toJson] at hfields ⊢
  simp [ofJson, hfields]

theorem LoggingConfig.ofJson_toJson (c : LoggingConfig) : LoggingConfig.ofJson c.toJson = .ok c := by
  have hfields : readFields "LoggingConfig" ["level", "format", "directives", "file_path"] c.toJson =
      .ok [("level", .string c.level), ("format", c.format.toJson), ("directives", .array (c.directives.map .string)),
        ("file_path", writeOption .string c.filePath)] := readFields_object rfl (by decide)
  have hpath : readOption readString (writeOption .string c.filePath) = .ok c.filePath :=
    readOption_writeOption (fun _ => rfl) (fun _ => nofun)
  rw [ofJson, hfields]
  simp [readList_array, hpath]

theorem Config.ofJson_toJson (c : Config) : Config.ofJson c.toJson = .ok c := by
  have hfields : readFields "Config" ["deployment", "membership", "logging"] c.toJson =
      .ok [("deployment", c.deployment.toJson), ("membership", c.membership.toJson), ("logging", c.logging.toJson)] :=
    readFields_object rfl (by decide)
  rw [ofJson, hfields]
  simp [DeploymentConfig.ofJson_toJson,
    MembershipConfig.ofJson_toJson, LoggingConfig.ofJson_toJson]

theorem Config.toJson_plain (c : Config) : c.toJson.Plain := by
  simp [toJson, DeploymentConfig.toJson, MembershipConfig.toJson, LoggingConfig.toJson, plain_writeOption]

/-! ## Round trip -/

/-- the text that is written for the value is read as the value -/
def Json.RoundTrips {α : Type} (write : α → Value) (read : Value → Read α) (a : α) : Prop :=
  (readText (write a).text).map read = some (.ok a)

theorem Json.RoundTrips.of_plain {α : Type} {write : α → Value} {read : Value → Read α} {a : α}
    (hplain : (write a).Plain) (hread : read (write a) = .ok a) : RoundTrips write read a := by
  rw [RoundTrips, readText_text hplain, Option.map_some, hread]

/-- **round trip through JSON**: every event, node, token and configuration is read from the text that is written for it,
provided that its times are readable and that no name in the metadata of a node repeats. The tag of an event is its
kind, events of different variants are of different kinds, and an object with a tag is read as an event of that kind or
not at all. -/
theorem json_round_trip :
    (∀ e : DeploymentEvent, (∀ t ∈ e.timestamps, t.IsReadable) →
      RoundTrips DeploymentEvent.toJson DeploymentEvent.ofJson e) ∧
    (∀ e : Membership.Event, RoundTrips Membership.Event.toJson Membership.Event.ofJson e) ∧
    (∀ n : Membership.Node, n.lastHeartbeat.IsReadable → (n.metadata.map Prod.fst).Nodup →
      RoundTrips Membership.Node.toJson Membership.Node.ofJson n) ∧
    (∀ t : Membership.FencingToken, RoundTrips Membership.FencingToken.toJson Membership.FencingToken.ofJson t) ∧
    (∀ c : Config, RoundTrips Config.toJson Config.ofJson c) ∧
    (∀ e : DeploymentEvent, e.toJson.get? "type" = some (.string e.kind)) ∧
    (∀ e : Membership.Event, e.toJson.get? "type" = some (.string e.kind)) ∧
    (∀ e e' : DeploymentEvent, e.variant ≠ e'.variant → e.kind ≠ e'.kind) ∧
    (∀ e e' : Membership.Event, e.variant ≠ e'.variant → e.kind ≠ e'.kind) ∧
    (∀ v k e, v.get? "type" = some (.string k) → DeploymentEvent.ofJson v = .ok e → e.kind = k) ∧
    ∀ v k e, v.get? "type" = some (.string k) → Membership.Event.ofJson v = .ok e → e.kind = k := by
  refine ⟨?_, ?_, ?_, ?_, ?_, DeploymentEvent.type_toJson, Membership.Event.type_toJson, ?_, ?_, ?_, ?_⟩
  · intro e h
    exact .of_plain e.toJson_plain (DeploymentEvent.ofJson_toJson h)
  · intro e
    exact .of_plain e.toJson_plain e.ofJson_toJson
  · intro n ht hm
    exact .of_plain n.toJson_plain (Membership.Node.ofJson_toJson ht hm)
  · intro t
    exact .of_plain t.toJson_plain t.ofJson_toJson
  · intro c
    exact .of_plain c.toJson_plain c.ofJson_toJson
  · intro e e' hne h
    exact hne (DeploymentEvent.variant_of_kind h)
  · intro e e' hne h
    exact hne (Membership.Event.variant_of_kind h)
  · intro v k e htype h
    exact DeploymentEvent.kind_of_type htype h
  · intro v k e htype h
    exact Membership.Event.kind_of_type htype h

/-- an undeployment with a quote in its alias, and a node with one in its metadata -/
theorem json_round_trip_quoted :
    let t : Timestamp := ⟨1700000000, 5000000⟩
    let e : DeploymentEvent := .undeployed ⟨⟨"d"⟩, ⟨"node-a"⟩, "say \"x\"\n", true⟩ none t t
    let n : Membership.Node := ⟨⟨"node-a"⟩, "a:1", t, [("zone", "\"b\""), ("", "\u0001")], 18446744073709551615⟩
    t.IsReadable ∧ RoundTrips DeploymentEvent.toJson DeploymentEvent.ofJson e ∧
      RoundTrips Membership.Node.toJson Membership.Node.ofJson n := by
  intro t e n
  have ht : t.IsReadable := by
    unfold Timestamp.IsReadable
    decide +kernel
  have he : ∀ t ∈ e.timestamps, t.IsReadable := by
    intro t' ht'
    obtain rfl : t' = t := by simpa [e, DeploymentEvent.timestamps] using ht'
    exact ht
  exact ⟨ht, json_round_trip.1 e he, json_round_trip.2.2.1 n ht (by decide)⟩

end Redeploy
