import L0Worker.Lib.NumberSum
import L0Worker.Server.Inbound

/-!
# The verdict on an envelope

What `validateAuth` accepts, for every envelope, task, clock and secret.

* `givesVerdict_iff`: the lengths of token and signature are compared in UTF-16 code units,
  but the buffers that are compared next have to have the same number of bytes.  The check
  raises for a token that passes the first comparison and is not ASCII.
* `validateAuth_documented_iff`: an envelope is still accepted at the instant it expires.
* `token_bound_iff`: the payload that is signed determines the task, the time of issue and the
  lifetime, but the bytes that it is written as do so only for ids that are proper texts.
-/

namespace L0Worker.Server

open Worker Schema Utf16

/-! ## The checks -/

/-- The envelope is neither expired nor issued in the future. -/
def AuthEnvelope.Current (e : AuthEnvelope) (now : TimeValue) : Prop :=
  (e.issuedAt.add e.ttl).lt (.ofInt now.ms) = false ∧
    (Number.ofInt (now.ms + clockSkewMs)).lt e.issuedAt = false

/-- `generateAuthToken`. -/
def AuthConfig.generateAuthToken (c : AuthConfig) (secret : String) (taskId : JsString)
    (issuedAt ttl : Number) : String :=
  c.computeSignature secret taskId issuedAt ttl

/-- The token of the envelope is the signature of what the request is for. -/
def AuthConfig.Signed (c : AuthConfig) (e : AuthEnvelope) (taskId : JsString) : Prop :=
  ∃ secret, c.getAuthSecret = some secret ∧
    e.token = c.computeSignature secret taskId e.issuedAt e.ttl

theorem secureCompare_eq_true_iff {a b : String} : secureCompare a b = .ok true ↔ a = b := by
  unfold secureCompare
  constructor
  · intro h
    split at h
    · cases h
    · split at h
      · cases h
      · simpa using h
  · rintro rfl
    simp

/-- Strings of one length may have different numbers of bytes. -/
theorem secureCompare_returns_iff {a b : String} :
    (∃ same, secureCompare a b = .ok same) ↔
      (utf16Length a = utf16Length b → a.utf8ByteSize = b.utf8ByteSize) := by
  unfold secureCompare
  split
  · next hlength => simp [hlength]
  next hlength =>
  rw [not_not] at hlength
  split
  · next hbytes => simp [hlength, hbytes]
  · next hbytes =>
    rw [not_not] at hbytes
    simp [hbytes]

/-- The verdict on the two strings. -/
def signatureVerdict (a b : String) : Except Thrown AuthResult :=
  (secureCompare a b).map fun same => if same then .valid else .invalid "invalid_signature"

namespace AuthConfig

section Verdict

variable (c : AuthConfig) (auth : Option Json) (taskId : JsString) (now : TimeValue)

/-- The ways to a verdict. -/
inductive Verdict : Except Thrown AuthResult → Prop where
  | unparsed (hparse : authEnvelopeSchema auth = none) : Verdict (.ok (.invalid "invalid_format"))
  | notCurrent {e : AuthEnvelope} (hparse : authEnvelopeSchema auth = some e)
      (hcurrent : ¬ e.Current now) (reason : String) : Verdict (.ok (.invalid reason))
  | skipped {e : AuthEnvelope} (hparse : authEnvelopeSchema auth = some e)
      (hcurrent : e.Current now) (hskip : c.skipAuthValidation = true) : Verdict (.ok .valid)
  | noSecret {e : AuthEnvelope} (hparse : authEnvelopeSchema auth = some e)
      (hskip : c.skipAuthValidation = false) (hsecret : c.getAuthSecret = none) :
      Verdict (.ok (.invalid "missing_auth_secret"))
  | compared {e : AuthEnvelope} {secret : String} (hparse : authEnvelopeSchema auth = some e)
      (hcurrent : e.Current now) (hskip : c.skipAuthValidation = false)
      (hsecret : c.getAuthSecret = some secret) :
      Verdict (signatureVerdict e.token (c.computeSignature secret taskId e.issuedAt e.ttl))

theorem validateAuth_verdict :
    c.Verdict auth taskId now (c.validateAuth auth taskId now) := by
  unfold validateAuth
  cases hparse : authEnvelopeSchema auth with
  | none => exact .unparsed hparse
  | some e =>
      dsimp only
      split
      · next hexpired => exact .notCurrent hparse (fun h => by simp [h.1] at hexpired) _
      next hexpired =>
      split
      · next hfuture => exact .notCurrent hparse (fun h => by simp [h.2] at hfuture) _
      next hfuture =>
      have hcurrent : e.Current now := ⟨by simpa using hexpired, by simpa using hfuture⟩
      split
      · next hskip => exact .skipped hparse hcurrent hskip
      next hskip =>
      rw [Bool.not_eq_true] at hskip
      cases hsecret : c.getAuthSecret with
      | none => exact .noSecret hparse hskip hsecret
      | some secret =>
          have hverdict : c.Verdict auth taskId now _ := .compared hparse hcurrent hskip hsecret
          unfold signatureVerdict at hverdict
          dsimp only
          split
          · next thrown hthrown =>
            rw [hthrown] at hverdict
            exact hverdict
          · next hsame =>
            rw [hsame] at hverdict
            exact hverdict
          · next hsame =>
            rw [hsame] at hverdict
            exact hverdict

end Verdict

variable {c : AuthConfig} {auth : Option Json} {taskId : JsString} {now : TimeValue}

theorem signatureVerdict_eq_valid_iff {a b : String} :
    signatureVerdict a b = .ok .valid ↔ a = b := by
  rw [← secureCompare_eq_true_iff, signatureVerdict]
  cases secureCompare a b with
  | error thrown => simp [Except.map]
  | ok same => cases same <;> simp [Except.map]

/-- What is accepted. -/
theorem validateAuth_eq_valid_iff :
    c.validateAuth auth taskId now = .ok .valid ↔
      ∃ e, authEnvelopeSchema auth = some e ∧ e.Current now ∧
        (c.skipAuthValidation = true ∨ c.Signed e taskId) := by
  have h := c.validateAuth_verdict auth taskId now
  generalize c.validateAuth auth taskId now = verdict at h
  cases h with
  | unparsed hparse => simp [hparse]
  | notCurrent hparse hcurrent => simp [hparse, hcurrent]
  | skipped hparse hcurrent hskip => simp [hparse, hcurrent, hskip]
  | noSecret hparse hskip hsecret => simp [hparse, hskip, Signed, hsecret]
  | compared hparse hcurrent hskip hsecret =>
      simp [hparse, hcurrent, hskip, Signed, hsecret, signatureVerdict_eq_valid_iff]

end AuthConfig

/-! ## Envelopes with integer times -/

/-- The fields of a well-typed envelope whose times are integers. -/
structure HasFields (fields : List (String × Json)) (token : String) (issuedAt ttl : Int) :
    Prop where
  token : fields.lookup "token" = some (.str token)
  issuedAt : fields.lookup "issued_at" = some (.num (.ofInt issuedAt))
  ttl : fields.lookup "ttl" = some (.num (.ofInt ttl))

section Integers

variable {fields : List (String × Json)} {token : String} {issuedAt ttl : Int}

theorem authEnvelopeSchema_eq_some_iff (hfields : HasFields fields token issuedAt ttl)
    {e : AuthEnvelope} :
    authEnvelopeSchema (some (.obj fields)) = some e ↔
      e = ⟨token, .ofInt issuedAt, .ofInt ttl⟩ ∧ 32 ≤ utf16Length token ∧ 0 < ttl := by
  have hpositive : (Number.lt 0 (.ofInt ttl)) = true ↔ 0 < ttl := Number.ofInt_lt_ofInt_iff (m := 0)
  simp only [authEnvelopeSchema, object, hfields.token, hfields.issuedAt, hfields.ttl,
    Option.bind_eq_bind, Option.bind_eq_some_iff, check_eq_some_iff, string_eq_some_iff,
    number_eq_some_iff, positive]
  constructor
  · rintro ⟨_, ⟨htoken, hlength⟩, _, ⟨hissued, -⟩, _, ⟨⟨httl, -⟩, hpos⟩, he⟩
    cases htoken
    cases hissued
    cases httl
    exact ⟨(Option.some.inj he).symm, of_decide_eq_true hlength, hpositive.mp hpos⟩
  · rintro ⟨rfl, hlength, hpos⟩
    exact ⟨token, ⟨rfl, decide_eq_true hlength⟩, .ofInt issuedAt, ⟨rfl, rfl⟩, .ofInt ttl,
      ⟨⟨rfl, rfl⟩, hpositive.mpr hpos⟩, rfl⟩

/-- The sum is rounded, but not past a reading of the clock. -/
theorem current_iff {now : TimeValue} :
    AuthEnvelope.Current ⟨token, .ofInt issuedAt, .ofInt ttl⟩ now ↔
      now.ms ≤ issuedAt + ttl ∧ issuedAt ≤ now.ms + clockSkewMs := by
  have hnow : now.ms.natAbs < 2 ^ 53 := lt_of_le_of_lt now.bounded (by norm_num)
  rw [AuthEnvelope.Current, ← Bool.not_eq_true, ← Bool.not_eq_true,
    Number.add_ofInt_lt_iff hnow, Number.ofInt_lt_ofInt_iff, not_lt, not_lt]

end Integers

/-! ## Whether there is a verdict -/

namespace AuthConfig

/-- The call returns, and an envelope whose token is not the signature is not accepted. -/
def GivesVerdict (c : AuthConfig) (auth : Option Json) (taskId : JsString) (now : TimeValue) :
    Prop :=
  ∃ verdict, c.validateAuth auth taskId now = .ok verdict ∧
    ∀ e, authEnvelopeSchema auth = some e → ¬ c.Signed e taskId →
      ∃ reason, verdict = .invalid reason

/-- A signature is 32 bytes in base64. -/
structure SignsBase64 (c : AuthConfig) : Prop where
  length : ∀ secret bytes, utf16Length (c.hmacSha256 secret bytes) = 44
  ascii : ∀ secret bytes, IsAscii (c.hmacSha256 secret bytes)

variable {c : AuthConfig}

/-- A token of the length of a signature is compared if it is ASCII. -/
theorem signatureVerdict_returns_iff (hbase64 : c.SignsBase64) (token secret : String)
    (bytes : ByteArray) :
    (∃ verdict, signatureVerdict token (c.hmacSha256 secret bytes) = .ok verdict) ↔
      (utf16Length token = 44 → IsAscii token) := by
  have hlength := hbase64.length secret bytes
  have hbytes := utf8ByteSize_eq_utf16Length_iff.mpr (hbase64.ascii secret bytes)
  rw [← utf8ByteSize_eq_utf16Length_iff, ← hlength]
  calc (∃ verdict, signatureVerdict token (c.hmacSha256 secret bytes) = .ok verdict)
      ↔ ∃ same, secureCompare token (c.hmacSha256 secret bytes) = .ok same := by
        unfold signatureVerdict
        cases secureCompare token (c.hmacSha256 secret bytes) <;> simp [Except.map]
    _ ↔ _ := by
        rw [secureCompare_returns_iff, hbytes]
        exact forall_congr' fun h => by rw [h]

/-- With signatures checked, there is a verdict except where an envelope that is current
comes with a token of the length of a signature that is not ASCII. -/
theorem givesVerdict_iff (hskip : c.skipAuthValidation = false) (hbase64 : c.SignsBase64)
    (auth : Option Json) (taskId : JsString) (now : TimeValue) :
    c.GivesVerdict auth taskId now ↔
      ¬ ∃ e, authEnvelopeSchema auth = some e ∧ e.Current now ∧
        c.getAuthSecret.isSome = true ∧ utf16Length e.token = 44 ∧ ¬ IsAscii e.token := by
  have h := c.validateAuth_verdict auth taskId now
  unfold GivesVerdict
  generalize c.validateAuth auth taskId now = verdict at h
  cases h with
  | unparsed hparse => simp [hparse]
  | notCurrent hparse hcurrent => simp [hparse, hcurrent]
  | skipped hparse hcurrent hskip' => simp [hskip] at hskip'
  | noSecret hparse hskip hsecret => simp [hparse, hsecret]
  | @compared e secret hparse hcurrent hskip hsecret =>
      have hreturns := signatureVerdict_returns_iff hbase64 e.token secret
        (c.payload taskId e.issuedAt e.ttl).toUtf8
      constructor
      · rintro ⟨verdict, hverdict, -⟩ ⟨e', hparse', -, -, hlength, hascii⟩
        obtain rfl := Option.some.inj (hparse.symm.trans hparse')
        exact hascii (hreturns.mp ⟨verdict, hverdict⟩ hlength)
      · intro h
        obtain ⟨verdict, hverdict⟩ := hreturns.mpr fun hlength => by_contra fun hascii =>
          h ⟨e, hparse, hcurrent, by rw [hsecret]; rfl, hlength, hascii⟩
        refine ⟨verdict, hverdict, fun e' hparse' hsigned => ?_⟩
        obtain rfl := Option.some.inj (hparse.symm.trans hparse')
        cases verdict with
        | invalid reason => exact ⟨reason, rfl⟩
        | valid =>
            exact absurd ⟨secret, hsecret, signatureVerdict_eq_valid_iff.mp hverdict⟩ hsigned

/-- A token of 44 ASCII characters, checked against the signature of another one. -/
theorem givesVerdict_iff_ascii :
    let signature := "M04dQG8iVp65mVmDgGhL8bmyMGdAGZs4Y3YGXm0rTHU="
    let c : AuthConfig := ⟨false, some "secret", fun _ _ => signature, fun n => .ofList n.text⟩
    let auth : Json := .obj [("token", .str "aaaaaaaaaaaaaaaaaaaaaaaaaaaaaaaaaaaaaaaaaaaa"),
      ("issued_at", .num 0), ("ttl", .num 5)]
    c.GivesVerdict (some auth) "t1" ⟨5, by decide⟩ := by
  intro signature c auth
  have hlength : utf16Length signature = 44 := by decide
  have hascii : IsAscii signature := by decide
  have hbase64 : c.SignsBase64 := ⟨fun _ _ => hlength, fun _ _ => hascii⟩
  refine (givesVerdict_iff rfl hbase64 (some auth) "t1" ⟨5, by decide⟩).mpr ?_
  rintro ⟨e, hparse, -, -, -, hascii⟩
  have htoken := ((authEnvelopeSchema_eq_some_iff ⟨rfl, rfl, rfl⟩).mp hparse).1
  rw [htoken] at hascii
  exact hascii (by decide)

/-- The same for a token whose last character is not ASCII: the check raises. -/
theorem not_givesVerdict :
    let signature := "M04dQG8iVp65mVmDgGhL8bmyMGdAGZs4Y3YGXm0rTHU="
    let c : AuthConfig := ⟨false, some "secret", fun _ _ => signature, fun n => .ofList n.text⟩
    let auth : Json := .obj [("token", .str "aaaaaaaaaaaaaaaaaaaaaaaaaaaaaaaaaaaaaaaaaaaé"),
      ("issued_at", .num 0), ("ttl", .num 5)]
    c.validateAuth (some auth) "t1" ⟨5, by decide⟩ = .error bufferLengthError ∧
      ¬ c.GivesVerdict (some auth) "t1" ⟨5, by decide⟩ := by
  intro signature c auth
  have hraises : c.validateAuth (some auth) "t1" ⟨5, by decide⟩ = .error bufferLengthError := by
    decide +kernel
  refine ⟨hraises, ?_⟩
  rintro ⟨verdict, hverdict, -⟩
  cases hraises.symm.trans hverdict

end AuthConfig

/-! ## Which envelopes are accepted -/

namespace AuthConfig

/-- The check of the signature is off, or the envelope passes it. -/
def Trusts (c : AuthConfig) (e : AuthEnvelope) (taskId : JsString) : Prop :=
  c.skipAuthValidation = true ∨ c.Signed e taskId

/-- The conditions that are documented: the token is long enough, the lifetime is positive and
not over, the time of issue is at most five seconds ahead, and the signature is right. -/
def Documented (c : AuthConfig) (token : String) (issuedAt ttl : Int) (taskId : JsString)
    (now : TimeValue) : Prop :=
  32 ≤ utf16Length token ∧ 0 < ttl ∧ now.ms < issuedAt + ttl ∧ issuedAt ≤ now.ms + 5000 ∧
    c.Trusts ⟨token, .ofInt issuedAt, .ofInt ttl⟩ taskId

/-- The verdict is the documented one except at the instant at which the lifetime ends, where
an envelope that is otherwise right is still accepted. -/
theorem validateAuth_documented_iff {c : AuthConfig} {fields : List (String × Json)}
    {token : String} {taskId : JsString} {issuedAt ttl : Int} {now : TimeValue}
    {verdict : AuthResult} (hfields : HasFields fields token issuedAt ttl)
    (hreturns : c.validateAuth (some (.obj fields)) taskId now = .ok verdict) :
    (verdict = .valid ↔ c.Documented token issuedAt ttl taskId now) ↔
      ¬ (now.ms = issuedAt + ttl ∧ 32 ≤ utf16Length token ∧ 0 < ttl ∧
        c.Trusts ⟨token, .ofInt issuedAt, .ofInt ttl⟩ taskId) := by
  have hvalid : verdict = .valid ↔ (now.ms ≤ issuedAt + ttl ∧ issuedAt ≤ now.ms + 5000) ∧
      32 ≤ utf16Length token ∧ 0 < ttl ∧
      c.Trusts ⟨token, .ofInt issuedAt, .ofInt ttl⟩ taskId := by
    calc verdict = .valid ↔ c.validateAuth (some (.obj fields)) taskId now = .ok .valid := by
          rw [hreturns, Except.ok.injEq]
      _ ↔ _ := by
          rw [validateAuth_eq_valid_iff]
          constructor
          · rintro ⟨e, hparse, hcurrent, htrusts⟩
            obtain ⟨rfl, hlength, hpos⟩ := (authEnvelopeSchema_eq_some_iff hfields).mp hparse
            exact ⟨current_iff.mp hcurrent, hlength, hpos, htrusts⟩
          · rintro ⟨hcurrent, hlength, hpos, htrusts⟩
            exact ⟨_, (authEnvelopeSchema_eq_some_iff hfields).mpr ⟨rfl, hlength, hpos⟩,
              current_iff.mpr hcurrent, htrusts⟩
  rw [hvalid, Documented]
  constructor
  · rintro h ⟨hnow, hlength, hpos, htrusts⟩
    -- the time of issue is in the past, since the lifetime is positive
    have hlt := (h.mp ⟨⟨by omega, by omega⟩, hlength, hpos, htrusts⟩).2.2.1
    omega
  · intro h
    constructor
    · rintro ⟨⟨hle, hskew⟩, hlength, hpos, htrusts⟩
      exact ⟨hlength, hpos, lt_of_le_of_ne hle fun hnow => h ⟨hnow, hlength, hpos, htrusts⟩,
        hskew, htrusts⟩
    · rintro ⟨hlength, hpos, hlt, hskew, htrusts⟩
      exact ⟨⟨hlt.le, hskew⟩, hlength, hpos, htrusts⟩

/-- Before that instant, in a worker that does not check signatures. -/
theorem validateAuth_documented_iff_before :
    let c : AuthConfig := ⟨true, none, fun _ _ => "", fun n => .ofList n.text⟩
    let fields : List (String × Json) := [("token", .str "aaaaaaaaaaaaaaaaaaaaaaaaaaaaaaaa"),
      ("issued_at", .num (.ofInt 0)), ("ttl", .num (.ofInt 5))]
    let now : TimeValue := ⟨4, by decide⟩
    c.validateAuth (some (.obj fields)) "t1" now = .ok .valid ∧
      c.Documented "aaaaaaaaaaaaaaaaaaaaaaaaaaaaaaaa" 0 5 "t1" now := by
  intro c fields now
  have hreturns : c.validateAuth (some (.obj fields)) "t1" now = .ok .valid := by decide +kernel
  have hiff := validateAuth_documented_iff ⟨rfl, rfl, rfl⟩ hreturns
  exact ⟨hreturns, (hiff.mpr fun h => absurd h.1 (by decide)).mp rfl⟩

/-- At that instant the envelope is accepted, and it is not to be. -/
theorem validateAuth_not_documented :
    let c : AuthConfig := ⟨true, none, fun _ _ => "", fun n => .ofList n.text⟩
    let fields : List (String × Json) := [("token", .str "aaaaaaaaaaaaaaaaaaaaaaaaaaaaaaaa"),
      ("issued_at", .num (.ofInt 0)), ("ttl", .num (.ofInt 5))]
    let now : TimeValue := ⟨5, by decide⟩
    c.validateAuth (some (.obj fields)) "t1" now = .ok .valid ∧
      ¬ c.Documented "aaaaaaaaaaaaaaaaaaaaaaaaaaaaaaaa" 0 5 "t1" now := by
  intro c fields now
  refine ⟨by decide +kernel, ?_⟩
  rintro ⟨-, -, hlt, -, -⟩
  exact absurd hlt (by decide)

end AuthConfig

/-! ## What a token is made for -/

/-- A task with a time of issue and a lifetime.  Numbers have double precision. -/
@[ext] structure Grant where
  taskId : JsString
  issuedAt : Number
  ttl : Number
  issuedAt_isDouble : issuedAt.IsDouble
  ttl_isDouble : ttl.IsDouble

section Separators

variable {α : Type} {x : α} {s s' t t' u u' : List α}

/-- The last separator of a text is the one that no other follows. -/
theorem nil_of_separator {between : List α} (ht : x ∉ t) (h : x :: t = between ++ x :: t') :
    between = [] ∧ t = t' := by
  cases between with
  | nil => exact ⟨rfl, (List.cons.inj h).2⟩
  | cons y between =>
      obtain ⟨-, hrest⟩ := List.cons.inj h
      exact absurd (hrest ▸ List.mem_append_right between List.mem_cons_self) ht

theorem eq_of_separator (ht : x ∉ t) (ht' : x ∉ t') (h : s ++ x :: t = s' ++ x :: t') :
    s = s' ∧ t = t' := by
  rcases List.append_eq_append_iff.mp h with ⟨between, hs, htail⟩ | ⟨between, hs, htail⟩
  · obtain ⟨rfl, heq⟩ := nil_of_separator ht htail
    rw [List.append_nil] at hs
    exact ⟨hs.symm, heq⟩
  · obtain ⟨rfl, heq⟩ := nil_of_separator ht' htail
    rw [List.append_nil] at hs
    exact ⟨hs, heq.symm⟩

/-- The same for two separators, the first of which may be followed by others. -/
theorem eq_of_separators (ht : x ∉ t) (ht' : x ∉ t') (hu : x ∉ u) (hu' : x ∉ u')
    (h : s ++ x :: (t ++ x :: u) = s' ++ x :: (t' ++ x :: u')) : s = s' ∧ t = t' ∧ u = u' := by
  have hlast : (s ++ x :: t) ++ x :: u = (s' ++ x :: t') ++ x :: u' := by simpa using h
  obtain ⟨hfirst, hu⟩ := eq_of_separator hu hu' hlast
  obtain ⟨hs, ht⟩ := eq_of_separator ht ht' hfirst
  exact ⟨hs, ht, hu⟩

end Separators

namespace AuthConfig

/-- The text of a number determines it and has no separator. -/
structure WritesNumbers (c : AuthConfig) : Prop where
  injective : ∀ m n : Number, m.IsDouble → n.IsDouble → c.numberText m = c.numberText n → m = n
  separator : ∀ n : Number, n.IsDouble → '|' ∉ (c.numberText n).toList

/-- The text of a number in JavaScript is such a text. -/
theorem writesNumbers_of_text {c : AuthConfig} (h : ∀ n, c.numberText n = .ofList n.text) :
    c.WritesNumbers where
  injective m n hm hn heq := by
    rw [h, h] at heq
    exact Number.text_injective hm hn (String.ofList_injective heq)
  separator n _ hmem := by
    rw [h, String.toList_ofList] at hmem
    exact absurd (Number.mem_text hmem) (by decide)

/-- The payload of a grant. -/
def grantPayload (c : AuthConfig) (g : Grant) : JsString := c.payload g.taskId g.issuedAt g.ttl

/-- A token that is made for the grant passes the check of the signature for it and for nothing
else. -/
structure TokenBound (c : AuthConfig) (secret : String) (g : Grant) : Prop where
  check : ∀ g' : Grant,
    secureCompare (c.generateAuthToken secret g.taskId g.issuedAt g.ttl)
      (c.computeSignature secret g'.taskId g'.issuedAt g'.ttl) = .ok true ↔ g' = g
  valid : c.skipAuthValidation = false → c.getAuthSecret = some secret →
    ∀ (g' : Grant) (auth : Option Json) (now : TimeValue),
      authEnvelopeSchema auth =
        some ⟨c.generateAuthToken secret g.taskId g.issuedAt g.ttl, g'.issuedAt, g'.ttl⟩ →
      c.validateAuth auth g'.taskId now = .ok .valid → g' = g

section Payload

variable {c : AuthConfig} {g g' : Grant}

theorem grantPayload_units (c : AuthConfig) (g : Grant) :
    (c.grantPayload g).units = g.taskId.units ++ '|'.toNat ::
      (codeUnits (c.numberText g.issuedAt) ++ '|'.toNat :: codeUnits (c.numberText g.ttl)) := by
  have hbar : codeUnits "|" = ['|'.toNat] := rfl
  rw [grantPayload, payload, JsString.units_append, JsString.units_ofString]
  simp [codeUnits_append, hbar]

theorem grantPayload_chars (c : AuthConfig) (g : Grant) :
    (c.grantPayload g).chars = g.taskId.chars ++ '|' ::
      ((c.numberText g.issuedAt).toList ++ '|' :: (c.numberText g.ttl).toList) := by
  rw [grantPayload, payload, JsString.chars_append_ofString]
  simp

theorem grantPayload_injective (hnumbers : c.WritesNumbers) :
    Function.Injective c.grantPayload := by
  intro g g' h
  have hunits := congrArg JsString.units h
  rw [grantPayload_units, grantPayload_units] at hunits
  have hseparator : ∀ n : Number, n.IsDouble → '|'.toNat ∉ codeUnits (c.numberText n) :=
    fun n hn hmem => hnumbers.separator n hn ((toNat_mem_codeUnits_iff (by decide)).mp hmem)
  obtain ⟨htask, hissued, httl⟩ := eq_of_separators (hseparator _ g.issuedAt_isDouble)
    (hseparator _ g'.issuedAt_isDouble) (hseparator _ g.ttl_isDouble)
    (hseparator _ g'.ttl_isDouble) hunits
  exact Grant.ext (JsString.ext htask)
    (hnumbers.injective _ _ g.issuedAt_isDouble g'.issuedAt_isDouble (codeUnits_injective hissued))
    (hnumbers.injective _ _ g.ttl_isDouble g'.ttl_isDouble (codeUnits_injective httl))

/-- The bytes of the payload determine the numbers and the bytes of the id. -/
theorem grantPayload_utf8_iff (hnumbers : c.WritesNumbers) :
    (c.grantPayload g).toUtf8 = (c.grantPayload g').toUtf8 ↔
      g.taskId.toUtf8 = g'.taskId.toUtf8 ∧ g.issuedAt = g'.issuedAt ∧ g.ttl = g'.ttl := by
  rw [JsString.toUtf8_eq_iff, JsString.toUtf8_eq_iff, grantPayload_chars, grantPayload_chars]
  constructor
  · intro h
    obtain ⟨htask, hissued, httl⟩ := eq_of_separators
      (hnumbers.separator _ g.issuedAt_isDouble) (hnumbers.separator _ g'.issuedAt_isDouble)
      (hnumbers.separator _ g.ttl_isDouble) (hnumbers.separator _ g'.ttl_isDouble) h
    exact ⟨htask,
      hnumbers.injective _ _ g.issuedAt_isDouble g'.issuedAt_isDouble
        (String.toList_inj.mp hissued),
      hnumbers.injective _ _ g.ttl_isDouble g'.ttl_isDouble (String.toList_inj.mp httl)⟩
  · rintro ⟨htask, hissued, httl⟩
    rw [htask, hissued, httl]

end Payload

variable {c : AuthConfig} {secret : String}

/-- The check of the signature compares the bytes of the payloads. -/
theorem check_iff (hmac : Function.Injective (c.hmacSha256 secret)) {g g' : Grant} :
    secureCompare (c.generateAuthToken secret g.taskId g.issuedAt g.ttl)
      (c.computeSignature secret g'.taskId g'.issuedAt g'.ttl) = .ok true ↔
        (c.grantPayload g).toUtf8 = (c.grantPayload g').toUtf8 := by
  rw [secureCompare_eq_true_iff]
  exact hmac.eq_iff

/-- The payload determines the grant.  A token is bound to the grant it was made for exactly when
the id of the task is a text without `U+FFFD`: a surrogate without its other half is written as
`U+FFFD` before the payload is signed. -/
theorem token_bound_iff (hnumbers : c.WritesNumbers)
    (hmac : Function.Injective (c.hmacSha256 secret)) :
    Function.Injective c.grantPayload ∧ ∀ g : Grant, c.TokenBound secret g ↔ g.taskId.IsText := by
  refine ⟨grantPayload_injective hnumbers, fun g => ⟨fun hbound => ?_, fun htext => ?_⟩⟩
  · rw [← JsString.toUtf8_determines_iff]
    intro id hid
    let g' : Grant := { g with taskId := id }
    have hbytes : (c.grantPayload g).toUtf8 = (c.grantPayload g').toUtf8 :=
      (grantPayload_utf8_iff hnumbers).mpr ⟨hid.symm, rfl, rfl⟩
    exact congrArg Grant.taskId ((hbound.check g').mp ((check_iff hmac).mpr hbytes))
  · have hsame : ∀ g' : Grant, (c.grantPayload g).toUtf8 = (c.grantPayload g').toUtf8 → g' = g := by
      intro g' hbytes
      obtain ⟨hid, hissued, httl⟩ := (grantPayload_utf8_iff hnumbers).mp hbytes
      exact Grant.ext (JsString.toUtf8_determines_iff.mpr htext _ hid.symm) hissued.symm httl.symm
    refine ⟨fun g' => (check_iff hmac).trans ⟨hsame g', ?_⟩, ?_⟩
    · rintro rfl
      rfl
    · intro hskip hsecret g' auth now hparse hvalid
      obtain ⟨e, hparse', -, htrusts⟩ := validateAuth_eq_valid_iff.mp hvalid
      obtain rfl := Option.some.inj (hparse.symm.trans hparse')
      rcases htrusts with hskip' | ⟨secret', hsecret', htoken⟩
      · rw [hskip] at hskip'
        cases hskip'
      · obtain rfl := Option.some.inj (hsecret.symm.trans hsecret')
        exact hsame g' ((check_iff hmac).mp (secureCompare_eq_true_iff.mpr htoken))

/-- Bytes as characters. -/
def byteText (bytes : ByteArray) : String :=
  .ofList (bytes.data.toList.map fun byte => .ofNat byte.toNat)

theorem byteText_injective : Function.Injective byteText := by
  intro b b' h
  have hchar : Function.Injective fun byte : UInt8 => Char.ofNat byte.toNat := by
    intro m n hmn
    have hvalid : ∀ byte : UInt8, byte.toNat.isValidChar :=
      fun byte => .inl (lt_trans byte.toNat_lt (by norm_num))
    have hnat := congrArg Char.toNat hmn
    dsimp only at hnat
    rw [toNat_ofNat (hvalid m), toNat_ofNat (hvalid n)] at hnat
    exact UInt8.toNat_inj.mp hnat
  have hdata := hchar.list_map (String.ofList_injective h)
  exact ByteArray.ext (Array.toList_inj.mp hdata)

/-- The signatures of three payloads, and something else for any other. -/
def signs (bytes : ByteArray) : String :=
  (((Equiv.swap "t1|0|5" "M04dQG8iVp65mVmDgGhL8bmyMGdAGZs4Y3YGXm0rTHU=").trans
    (Equiv.swap "t1|0|0|5" "j0pL7+bjqpG1EajtIuSgq/d9oI4g4JWsT9Q5b6h94m4=")).trans
    (Equiv.swap "ï¿½|0|5" "L97fA7HbwnGdlv0Paqm1eHtBZN8ifBV9S0e9wfnqt8A=")) (byteText bytes)

theorem signs_injective : Function.Injective signs :=
  (Equiv.injective _).comp byteText_injective

/-- A token for one task, and a task whose id goes on as that payload does. -/
theorem token_bound_separator :
    let c : AuthConfig := ⟨false, some "secret", fun _ => signs, fun n => .ofList n.text⟩
    secureCompare (c.generateAuthToken "secret" "t1" 0 5)
      (c.computeSignature "secret" "t1|0" 0 5) ≠ .ok true := by
  intro c h
  have hzero : Number.IsDouble 0 := by decide +kernel
  have hfive : Number.IsDouble 5 := by decide +kernel
  have hbound := (@token_bound_iff c "secret" (writesNumbers_of_text fun _ => rfl)
    signs_injective).2 ⟨"t1", 0, 5, hzero, hfive⟩
  have htext : JsString.IsText "t1" := by decide
  have hsame := ((hbound.mpr htext).check ⟨"t1|0", 0, 5, hzero, hfive⟩).mp h
  have htask : JsString.ofString "t1|0" = JsString.ofString "t1" := congrArg Grant.taskId hsame
  exact absurd (JsString.ofString_injective htask) (by decide)

/-- The ids of two tasks, each of which is half of a surrogate pair: a token for one of them
passes for the other. -/
theorem token_not_bound :
    let c : AuthConfig := ⟨false, some "secret", fun _ => signs, fun n => .ofList n.text⟩
    let id : JsString := ⟨[0xD800], by decide⟩
    let id' : JsString := ⟨[0xD801], by decide⟩
    secureCompare (c.generateAuthToken "secret" id 0 5) (c.computeSignature "secret" id' 0 5) =
        .ok true ∧
      ¬ ∀ g : Grant, c.TokenBound "secret" g := by
  intro c id id'
  have hzero : Number.IsDouble 0 := by decide +kernel
  have hfive : Number.IsDouble 5 := by decide +kernel
  have hbytes : (c.payload id 0 5).toUtf8 = (c.payload id' 0 5).toUtf8 := by
    refine JsString.toUtf8_eq_iff.mpr ?_
    rw [payload, payload, JsString.chars_append_ofString, JsString.chars_append_ofString]
    rfl
  have hpasses : secureCompare (c.generateAuthToken "secret" id 0 5)
      (c.computeSignature "secret" id' 0 5) = .ok true :=
    secureCompare_eq_true_iff.mpr (congrArg signs hbytes)
  refine ⟨hpasses, fun hall => ?_⟩
  have hsame := ((hall ⟨id, 0, 5, hzero, hfive⟩).check ⟨id', 0, 5, hzero, hfive⟩).mp hpasses
  have hid : id' = id := congrArg Grant.taskId hsame
  exact absurd hid (by decide)

end AuthConfig

end L0Worker.Server
