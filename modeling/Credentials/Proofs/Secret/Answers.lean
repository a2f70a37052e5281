import Credentials.Proofs.Run.Outcome
import Credentials.Proofs.Secret.Refinement

/-!
# What a read makes of an answer

* `Envelope.ofJson`             an envelope out of a value, as its fields alone would have it;
* `Envelope.ofJson_eq_ok_iff`   this takes a missing member for null, and an array for a record;
* `Response.form`               the checks that come before;
* `Response.check_eq`           an envelope in a response is these checks with the reader behind them;
* `Response.Holds`              the data is an object with a given member `value`;
* `Response.check_eq_ok_iff`    a response has an envelope iff it holds a string or null;
* `Vault.fetch`                 the part of a read that gets the answer of a handle;
* `Vault.read_exact`            a read says of every answer what it is, and nothing else.
-/

namespace Credentials

namespace Envelope

/-- an optional text out of a value -/
def valueOfJson : Json → Except Json.Error (Option String)
  | .null => .ok none
  | .string s => .ok (some s)
  | j => .error (.invalidType (Response.found j) "a string")

/-- an envelope out of a value: by name, where a missing member counts as null, or by position -/
def ofJson : Json → Except Json.Error Envelope
  | .object members =>
    match members.lookup "value" with
    | none => .ok ⟨none⟩
    | some j => (valueOfJson j).map mk
  | .array [] => .error (.invalidLength 0 "struct SecretEnvelope with 1 element")
  | .array [j] => (valueOfJson j).map mk
  | .array (j :: items) => do
    let _ ← valueOfJson j
    .error (.invalidLength (items.length + 1) "fewer elements in array")
  | j => .error (.invalidType (Response.found j) "struct SecretEnvelope")

theorem valueOfJson_eq_ok_iff {j : Json} {value : Option String} :
    valueOfJson j = .ok value ↔ j = .option value := by
  constructor
  · intro h
    cases j with
    | null => obtain rfl := Except.ok.inj h; rfl
    | string s => obtain rfl := Except.ok.inj h; rfl
    | bool | number | array | object => cases h
  · rintro rfl
    cases value <;> rfl

theorem map_valueOfJson_eq_ok_iff {j : Json} {e : Envelope} :
    (valueOfJson j).map mk = .ok e ↔ j = .option e.value := by
  rw [map_eq_ok_iff]
  constructor
  · rintro ⟨value, h, rfl⟩
    exact valueOfJson_eq_ok_iff.1 h
  · intro h
    exact ⟨e.value, valueOfJson_eq_ok_iff.2 h, rfl⟩

/-- An object without the member is taken as well as one with null, and so is an array of one item.
It is not the reader that keeps these apart. -/
theorem ofJson_eq_ok_iff {j : Json} {e : Envelope} :
    ofJson j = .ok e ↔
      (∃ members, j = .object members ∧ members.lookup "value" = some (.option e.value)) ∨
      (∃ members, j = .object members ∧ members.lookup "value" = none ∧ e.value = none) ∨
      j = .array [.option e.value] := by
  cases j with
  | object members =>
    simp only [ofJson]
    cases hl : members.lookup "value" with
    | none =>
      constructor
      · intro h
        obtain rfl := Except.ok.inj h
        exact .inr (.inl ⟨members, rfl, hl, rfl⟩)
      · rintro (⟨_, hm, h⟩ | ⟨_, -, -, h⟩ | h)
        · obtain rfl := Json.object.inj hm
          rw [hl] at h
          cases h
        · exact congrArg (fun value => Except.ok (mk value)) h.symm
        · cases h
    | some v =>
      simp only [map_valueOfJson_eq_ok_iff]
      constructor
      · rintro rfl
        exact .inl ⟨members, rfl, hl⟩
      · rintro (⟨_, hm, h⟩ | ⟨_, hm, h, -⟩ | h)
        · obtain rfl := Json.object.inj hm
          exact Option.some.inj (hl.symm.trans h)
        · obtain rfl := Json.object.inj hm
          rw [hl] at h
          cases h
        · cases h
  | array items =>
    match items with
    | [] => simp [ofJson]
    | [v] => simp [ofJson, map_valueOfJson_eq_ok_iff]
    | v :: w :: items =>
      have hlong : ofJson (.array (v :: w :: items)) ≠ .ok e := by
        intro h
        obtain ⟨value, -, h⟩ := bind_eq_ok_iff.1 h
        cases h
      simp [hlong]
  | null | bool | number | string => simp [ofJson]

end Envelope

namespace Response

/-- the data of a response, if it is an object with the member that matters -/
def form (r : Response) : Except String Json :=
  match r.data with
  | none => .error "response has no data"
  | some (.object members) =>
    if (members.lookup "value").isSome then .ok (.object members)
    else .error "response data has no 'value' field"
  | some _ => .error "response data is not an object"

/-- the envelope in a response is looked for by its form first, and read behind that -/
theorem check_eq (r : Response) :
    r.check = r.form >>= fun j =>
      (Envelope.ofJson j).mapError fun e => "'value' is not a string or null: " ++ e.message := by
  obtain ⟨data⟩ := r
  cases data with
  | none => rfl
  | some j =>
    cases j with
    | object members =>
      simp only [check, form]
      cases hl : members.lookup "value" with
      | none => rfl
      | some v =>
        rw [Option.isSome_some, if_pos rfl]
        show _ = (Envelope.ofJson (.object members)).mapError _
        simp only [Envelope.ofJson, hl]
        cases v <;> rfl
    | null | bool | number | string | array => rfl

/-- the data is an object, and this is its member `value` -/
def Holds (r : Response) (j : Json) : Prop :=
  ∃ members, r.data = some (.object members) ∧ members.lookup "value" = some j

variable {r : Response} {j k : Json}

theorem form_eq_ok_iff : r.form = .ok k ↔ r.data = some k ∧ ∃ j, k.get? "value" = some j := by
  obtain ⟨data⟩ := r
  cases data with
  | none => simp [form]
  | some d =>
    cases d with
    | object members =>
      simp only [form]
      cases hl : members.lookup "value" with
      | none =>
        constructor
        · intro h
          cases h
        · rintro ⟨hd, j, hj⟩
          obtain rfl := Option.some.inj hd
          rw [Json.get?, hl] at hj
          cases hj
      | some v =>
        rw [Option.isSome_some, if_pos rfl]
        constructor
        · intro h
          obtain rfl := Except.ok.inj h
          exact ⟨rfl, v, hl⟩
        · rintro ⟨hd, -⟩
          exact congrArg Except.ok (Option.some.inj hd)
    | null | bool | number | string | array =>
      simp only [form, reduceCtorEq, false_iff, Option.some.injEq]
      rintro ⟨rfl, j, hj⟩
      cases hj

/-- a response has an envelope iff it holds a string or null -/
theorem check_eq_ok_iff {e : Envelope} : r.check = .ok e ↔ r.Holds (.option e.value) := by
  rw [check_eq, bind_eq_ok_iff]
  constructor
  · rintro ⟨d, hform, hread⟩
    obtain ⟨hd, j, hj⟩ := form_eq_ok_iff.1 hform
    -- the checks leave only the first of the three forms that the reader takes
    rcases Envelope.ofJson_eq_ok_iff.1 (mapError_eq_ok_iff.1 hread) with
      ⟨members, rfl, hl⟩ | ⟨members, rfl, hl, -⟩ | rfl
    · exact ⟨members, hd, hl⟩
    · rw [Json.get?, hl] at hj
      cases hj
    · cases hj
  · rintro ⟨members, hd, hl⟩
    exact ⟨.object members, form_eq_ok_iff.2 ⟨hd, _, hl⟩,
      mapError_eq_ok_iff.2 (Envelope.ofJson_eq_ok_iff.2 (.inl ⟨members, rfl, hl⟩))⟩

/-- the other members of an object do not matter -/
theorem check_congr {members others : List (String × Json)}
    (h : others.lookup "value" = members.lookup "value") :
    check ⟨some (.object others)⟩ = check ⟨some (.object members)⟩ := by
  simp only [check, h]

/-- an envelope is found in the response that wraps it -/
theorem holds_ofEnvelope (e : Envelope) : (ofEnvelope e).Holds (.option e.value) :=
  ⟨[("value", .option e.value)], rfl, rfl⟩

end Response

namespace Vault

variable {v w : Vault} {svc : Nat} {space key : String} {a : Option Response}

/-- the part of a read that gets the answer of a handle -/
def fetch (svc : Nat) (space key : String) : Act (Option Response) := do
  note (.span "read_key_value_secret" [("namespace", space), ("key", key)])
  let h ← openSpace svc space
  orNote (getThrough h key) (keyFailed "key-value read failed" space key)

/-- what a read makes of an answer -/
def conclude (space key : String) : Option Response → Act Lookup
  | none => do
    note (.debug "no secret at key" [("namespace", space), ("key", key)])
    pure .notFound
  | some r => do
    let e ← orNote (Effect.ofExcept (r.envelope space key))
      (keyFailed "malformed key-value response" space key)
    pure (.found e.value)

/-- a read gets an answer and concludes from it -/
theorem read_eq (svc : Nat) (space key : String) :
    read svc space key = fetch svc space key >>= conclude space key := by
  unfold read fetch
  rw [Effect.bind_assoc]
  refine congrArg _ (funext fun _ => ?_)
  rw [Effect.bind_assoc]
  refine congrArg _ (funext fun h => congrArg _ (funext fun a => ?_))
  cases a <;> rfl

theorem conclude_fst (a : Option Response) (v : Vault) :
    ((conclude space key a).run v).1 = answer space key a := by
  cases a with
  | none => rfl
  | some r =>
    show _ = (r.envelope space key).map fun e => Lookup.found e.value
    rw [← bind_ok_eq_map]
    refine Effect.run_bind_fst ?_ fun e _ => rfl
    exact Effect.run_onFailure_fst _ _ v

/-- the outcome of a read is what is to be said of the answer -/
theorem read_fst_of_fetch (h : ((fetch svc space key).run v).1 = .ok a) :
    ((read svc space key).run v).1 = answer space key a := by
  rw [read_eq, Effect.run_bind_of_ok h]
  exact conclude_fst a _

theorem answer_eq_found_iff {value : Option String} :
    answer space key a = .ok (.found value) ↔ ∃ r, a = some r ∧ r.Holds (.option value) := by
  cases a with
  | none => simp [answer]
  | some r =>
    simp only [answer, map_eq_ok_iff, Response.envelope, mapError_eq_ok_iff,
      Response.check_eq_ok_iff, Option.some.injEq, exists_eq_left']
    constructor
    · rintro ⟨e, h, hv⟩
      obtain rfl := Lookup.found.inj hv
      exact h
    · intro h
      exact ⟨⟨value⟩, h, rfl⟩

theorem answer_eq_notFound_iff : answer space key a = .ok .notFound ↔ a = none := by
  cases a with
  | none => simp [answer]
  | some r =>
    simp only [answer, map_eq_ok_iff, reduceCtorEq, and_false, exists_false]

/-- whatever is not answered breaks the contract of this key -/
theorem answer_eq_error_iff {err : SecretError} :
    answer space key a = .error err ↔
      ∃ r m, a = some r ∧ r.check = .error m ∧ err = .contractViolation space key m := by
  cases a with
  | none => simp [answer]
  | some r =>
    simp only [answer, map_eq_error_iff, Response.envelope, mapError_eq_error_iff,
      Option.some.injEq, exists_eq_left', exists_and_left]

/-- A read answers `notFound` iff there is nothing, `found` iff the data is an object whose member
`value` is a string or null, and breaks the contract with everything else: without data, with data that
is no object, without the member, or with a member of another type. No other member matters, and what
wraps an envelope is read as that envelope. -/
theorem read_exact (h : ((fetch svc space key).run v).1 = .ok a) :
    (((read svc space key).run v).1 = .ok .notFound ↔ a = none) ∧
    (∀ s, ((read svc space key).run v).1 = .ok (.found (some s)) ↔
      ∃ r, a = some r ∧ r.Holds (.string s)) ∧
    (((read svc space key).run v).1 = .ok (.found none) ↔ ∃ r, a = some r ∧ r.Holds .null) ∧
    ((∃ m, ((read svc space key).run v).1 = .error (.contractViolation space key m)) ↔
      ∃ r, a = some r ∧ ¬ r.Holds .null ∧ ∀ s, ¬ r.Holds (.string s)) ∧
    (∀ members others w, a = some ⟨some (.object members)⟩ →
      others.lookup "value" = members.lookup "value" →
      ((fetch svc space key).run w).1 = .ok (some ⟨some (.object others)⟩) →
      ((read svc space key).run w).1 = ((read svc space key).run v).1) ∧
    ∀ e, a = some (.ofEnvelope e) → ((read svc space key).run v).1 = .ok (.found e.value) := by
  rw [read_fst_of_fetch h]
  refine ⟨answer_eq_notFound_iff, fun s => answer_eq_found_iff, answer_eq_found_iff, ?_, ?_, ?_⟩
  · constructor
    · rintro ⟨m, hm⟩
      obtain ⟨r, _, rfl, hc, -⟩ := answer_eq_error_iff.1 hm
      have hbad : ∀ value, ¬ r.Holds (.option value) := fun value hv => by
        rw [Response.check_eq_ok_iff (e := ⟨value⟩) |>.2 hv] at hc
        cases hc
      exact ⟨r, rfl, hbad none, fun s => hbad (some s)⟩
    · rintro ⟨r, rfl, hnull, hstring⟩
      cases hc : r.check with
      | ok e =>
        obtain ⟨_ | s⟩ := e
        · exact absurd (Response.check_eq_ok_iff.1 hc) hnull
        · exact absurd (Response.check_eq_ok_iff.1 hc) (hstring s)
      | error m => exact ⟨m, answer_eq_error_iff.2 ⟨r, m, rfl, hc, rfl⟩⟩
  · rintro members others w rfl hl hw
    rw [read_fst_of_fetch hw]
    simp only [answer, Response.envelope, Response.check_congr hl]
  · rintro e rfl
    exact answer_eq_found_iff.2 ⟨_, rfl, Response.holds_ofEnvelope e⟩

/-- a vault over a backend that answers every read in the same way -/
def scripted (random : RandomStream) (a : Option Response) : Vault :=
  { initial random with backend := .start (.scripted a []) }

/-- every answer can be got -/
theorem fetch_scripted (random : RandomStream) (a : Option Response) (svc : Nat) (space key : String) :
    ((fetch svc space key).run (scripted random a)).1 = .ok a := rfl

/-- an envelope with other members beside it, one of which has a member `value` itself -/
def crowded : Response :=
  ⟨some (.object [("lease", .nat 3600), ("meta", .object [("value", .array [.null, .object []])]),
    ("value", .string "swordfish")])⟩

/-- only the member of the object itself is looked at -/
theorem read_exact_crowded :
    let v := scripted ⟨.generator 7⟩ (some crowded)
    ((fetch 0 "app" "password").run v).1 = .ok (some crowded) ∧
    ((read 0 "app" "password").run v).1 = .ok (.found (some "swordfish")) := by
  have h := fetch_scripted ⟨.generator 7⟩ (some crowded) 0 "app" "password"
  exact ⟨h, ((read_exact h).2.1 "swordfish").2 ⟨crowded, rfl, _, rfl, rfl⟩⟩

end Vault

end Credentials
