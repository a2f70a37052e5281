import Credentials.Proofs.Json.Written
import Credentials.Proofs.Time.Span
import Credentials.Secret.Config

/-!
# Settings read from their written form

* `VaultConfig.Says`              the value of a field is what settings have there;
* `VaultConfig.Slots.of`          the fields of settings that were met;
* `VaultConfig.Slots.take_of`     one more field is met;
* `VaultConfig.foldMembers_of`    so do all members, in whatever order they stand;
* `VaultConfig.withToken`         the members of written settings, with that of the token;
* `VaultConfig.readText_written`  settings are read again, once the token is among their members.
-/

namespace Credentials

/-- a version is read from its name -/
theorem Engine.ofTree_name (e : Engine) :
    Engine.ofTree (.string (Json.Piece.ofString e.name)) = .ok e := by
  show (Json.orMalformed (Json.Piece.text? (Json.Piece.ofString e.name)) >>= _) = _
  rw [Json.Piece.text?_ofString]
  cases e <;> rfl

namespace VaultConfig

open Json (Tree Member Piece Named)

/-- a length of time is read from its written form -/
theorem spanOfTree_text (s : Span) : spanOfTree (.string (Piece.ofString s.text)) = .ok s := by
  show (Json.orMalformed (Piece.text? (Piece.ofString s.text)) >>= _) = _
  rw [Piece.text?_ofString]
  simp only [Json.orMalformed, bind, Except.bind, Span.read?_text]

/-! ## fields by their names -/

/-- the value of the field of a name is what settings have there -/
def Says (c : VaultConfig) (t : Tree) : String → Prop
  | "uri" => t.text = .ok c.uri
  | "token" => t.text = .ok c.token
  | "kv_engine" => Engine.ofTree t = .ok c.engine
  | "connect_timeout" => spanOfTree t = .ok c.connectTimeout
  | "read_timeout" => spanOfTree t = .ok c.readTimeout
  | _ => False

/-- the fields of settings that were met, by their names -/
def Slots.of (c : VaultConfig) (met : List String) : Slots where
  uri := if "uri" ∈ met then some c.uri else none
  token := if "token" ∈ met then some c.token else none
  engine := if "kv_engine" ∈ met then some c.engine else none
  connectTimeout := if "connect_timeout" ∈ met then some c.connectTimeout else none
  readTimeout := if "read_timeout" ∈ met then some c.readTimeout else none

variable {c : VaultConfig} {met : List String}

/-- a field that was not met yet is met with what settings have there -/
theorem Slots.take_of {name : String} {t : Tree} (hm : name ∉ met) (h : c.Says t name) :
    (Slots.of c met).take name t = .ok (Slots.of c (name :: met)) := by
  unfold Says at h
  unfold Slots.take
  split at h
  · rw [h, show (Slots.of c met).uri = none from if_neg hm]
    show Except.ok { Slots.of c met with uri := some c.uri } = _
    simp [Slots.of]
  · rw [h, show (Slots.of c met).token = none from if_neg hm]
    show Except.ok { Slots.of c met with token := some c.token } = _
    simp [Slots.of]
  · rw [h, show (Slots.of c met).engine = none from if_neg hm]
    show Except.ok { Slots.of c met with engine := some c.engine } = _
    simp [Slots.of]
  · rw [h, show (Slots.of c met).connectTimeout = none from if_neg hm]
    show Except.ok { Slots.of c met with connectTimeout := some c.connectTimeout } = _
    simp [Slots.of]
  · rw [h, show (Slots.of c met).readTimeout = none from if_neg hm]
    show Except.ok { Slots.of c met with readTimeout := some c.readTimeout } = _
    simp [Slots.of]
  · exact h.elim

/-- members that say what settings have are taken one after another, if no name comes twice -/
theorem foldMembers_of {ms : List Member} {members : List (String × Tree)} (hn : Named ms members)
    (hs : ∀ m ∈ members, c.Says m.2 m.1) (hd : (members.map Prod.fst).Nodup)
    (hm : ∀ m ∈ members, m.1 ∉ met) :
    Tree.foldMembers Slots.take .closed (Slots.of c met) ms
      = .ok (Slots.of c ((members.map Prod.fst).reverse ++ met)) := by
  induction hn generalizing met with
  | nil => rfl
  | @cons m member ms members hhead _ ih =>
    obtain ⟨k, t⟩ := m
    obtain ⟨name, u⟩ := member
    obtain ⟨hk, rfl⟩ := hhead
    obtain ⟨hname, hd⟩ := List.nodup_cons.1 hd
    have hfresh := hm (name, t) List.mem_cons_self
    have hrest : ∀ m ∈ members, m.1 ∉ name :: met := by
      intro m hmem hin
      rcases List.mem_cons.1 hin with e | hin
      · exact hname (List.mem_map.2 ⟨m, hmem, e⟩)
      · exact hm m (List.mem_cons_of_mem _ hmem) hin
    have hstep := Slots.take_of hfresh (hs (name, t) List.mem_cons_self)
    rw [Tree.foldMembers, hk]
    show ((Slots.of c met).take name t >>= _) = _
    rw [hstep]
    show Tree.foldMembers Slots.take .closed (Slots.of c (name :: met)) ms = _
    rw [ih (fun m hmem => hs m (List.mem_cons_of_mem _ hmem)) hd hrest, List.map_cons,
      List.reverse_cons, List.append_assoc]
    rfl

theorem Slots.finish_of (h : ∀ name ∈ fields, name ∈ met) : (Slots.of c met).finish = .ok c := by
  have hall : Slots.of c met = ⟨some c.uri, some c.token, some c.engine, some c.connectTimeout,
      some c.readTimeout⟩ := by
    unfold Slots.of
    rw [if_pos (h _ (by decide)), if_pos (h _ (by decide)), if_pos (h _ (by decide)),
      if_pos (h _ (by decide)), if_pos (h _ (by decide))]
  rw [hall]
  rfl

/-! ## all of them -/

/-- the members of written settings, with that of the token -/
def withToken (c : VaultConfig) : List (String × Json) :=
  [("token", .string c.token), ("uri", .string c.uri), ("kv_engine", c.engine.toJson),
    ("connect_timeout", .string c.connectTimeout.text), ("read_timeout", .string c.readTimeout.text)]

theorem says_of_mem_withToken {m : String × Json} (h : m ∈ c.withToken) : c.Says m.2.tree m.1 := by
  simp only [withToken, List.mem_cons, List.not_mem_nil, or_false] at h
  rcases h with rfl | rfl | rfl | rfl | rfl
  · exact Tree.text_ofString c.token
  · exact Tree.text_ofString c.uri
  · exact Engine.ofTree_name c.engine
  · exact spanOfTree_text c.connectTimeout
  · exact spanOfTree_text c.readTimeout

/-- every member is a string -/
theorem unsigned_of_mem_withToken {m : String × Json} (h : m ∈ c.withToken) : m.2.unsigned = true := by
  simp only [withToken, List.mem_cons, List.not_mem_nil, or_false] at h
  rcases h with rfl | rfl | rfl | rfl | rfl <;> rfl

theorem membersUnsigned_of_all {ms : List (String × Json)} (h : ∀ m ∈ ms, m.2.unsigned = true) :
    Json.membersUnsigned ms = true := by
  induction ms with
  | nil => rfl
  | cons m ms ih =>
    exact Bool.and_eq_true_iff.2 ⟨h m List.mem_cons_self, ih fun n hn => h n (List.mem_cons_of_mem _ hn)⟩

/-- the tree of settings is read as the settings, in whatever order the members stand -/
theorem ofTree_of_perm {ms : List (String × Json)} (hp : ms.Perm c.withToken) :
    ofTree (Json.object ms).tree = .ok c := by
  have hnames : (ms.map Prod.fst).Perm (c.withToken.map Prod.fst) := hp.map _
  have hnodup : (c.withToken.map Prod.fst).Nodup := by
    show ["token", "uri", "kv_engine", "connect_timeout", "read_timeout"].Nodup
    decide
  have hmap : (ms.map fun m => (m.1, m.2.tree)).map Prod.fst = ms.map Prod.fst := by
    rw [List.map_map]
    rfl
  have hsays : ∀ m ∈ ms.map (fun m => (m.1, m.2.tree)), c.Says m.2 m.1 := by
    intro m hm
    obtain ⟨n, hn, rfl⟩ := List.mem_map.1 hm
    exact says_of_mem_withToken (hp.mem_iff.1 hn)
  have hfold : Tree.foldMembers Slots.take .closed (Slots.of c []) (Json.memberTrees ms) = _ :=
    foldMembers_of (Json.named_memberTrees ms) hsays (hmap ▸ hnames.nodup_iff.2 hnodup)
      fun _ _ => List.not_mem_nil
  have hall : ∀ name ∈ fields, name ∈ ((ms.map fun m => (m.1, m.2.tree)).map Prod.fst).reverse ++ [] := by
    intro name hname
    rw [List.append_nil, List.mem_reverse, hmap, hnames.mem_iff]
    revert name
    show ∀ name ∈ fields, name ∈ ["token", "uri", "kv_engine", "connect_timeout", "read_timeout"]
    decide
  show (Tree.foldMembers Slots.take .closed (Slots.of c []) (Json.memberTrees ms) >>= Slots.finish) = _
  rw [hfold]
  exact Slots.finish_of hall

/-- settings are read again from what is written of them, once the token is among their members, in
whatever order these stand. The limits are written as texts from which their reader gets them back to
the nanosecond. -/
theorem readText_written {ms members : List (String × Json)} (c : VaultConfig)
    (hj : c.toJson = .object ms) (hp : members.Perm (("token", .string c.token) :: ms)) :
    (∃ d, Json.readText ofTree (utf8 (Json.object members).text) = .ok d ∧ d = c ∧
      d.validate = c.validate) ∧
    (ms.lookup "connect_timeout" = some (.string c.connectTimeout.text) ∧
      Span.read? c.connectTimeout.text = some c.connectTimeout) ∧
    (ms.lookup "read_timeout" = some (.string c.readTimeout.text) ∧
      Span.read? c.readTimeout.text = some c.readTimeout) := by
  cases hj
  have hperm : members.Perm c.withToken := hp
  have hunsigned : (Json.object members).unsigned = true :=
    membersUnsigned_of_all fun m hm => unsigned_of_mem_withToken (hperm.mem_iff.1 hm)
  refine ⟨⟨c, ?_, rfl, rfl⟩, ⟨rfl, Span.read?_text _⟩, rfl, Span.read?_text _⟩
  rw [Json.readText_text ofTree hunsigned]
  exact ofTree_of_perm hperm

/-- settings at the edges: an address with a quote, a control character and one behind the ASCII ones, a
blank token, the longest limit and none at all -/
def edges : VaultConfig :=
  ⟨"http://\"\x01é", "\t", .v1, ⟨wordLimit - 1, 999999999, by decide, by decide⟩, .zero⟩

theorem readText_written_edges :
    let ms := [("uri", Json.string "http://\"\x01é"), ("kv_engine", .string "v1"),
      ("connect_timeout", .string "584542046090years 7months 15days 17h 5m 3s 999ms 999us 999ns"),
      ("read_timeout", .string "0s")]
    let members := ms.reverse ++ [("token", Json.string "\t")]
    edges.toJson = .object ms ∧ members.Perm (("token", .string edges.token) :: ms) ∧
      Json.readText ofTree (utf8 (Json.object members).text) = .ok edges := by
  intro ms members
  have hconnect : edges.connectTimeout.text
      = "584542046090years 7months 15days 17h 5m 3s 999ms 999us 999ns" := by decide
  have hj : edges.toJson = .object ms := by
    unfold toJson
    rw [hconnect]
    rfl
  have hp : members.Perm (("token", .string edges.token) :: ms) := by
    have h := List.reverse_perm (("token", Json.string "\t") :: ms)
    rwa [List.reverse_cons] at h
  obtain ⟨⟨d, hread, rfl, -⟩, -⟩ := readText_written edges hj hp
  exact ⟨hj, hp, hread⟩

end VaultConfig

end Credentials
