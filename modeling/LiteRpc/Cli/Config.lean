import Mathlib.Data.Option.Basic

/-!
# `Config::load`: the settings of the lite-rpc service

`Config::load` (`lite-rpc/src/cli.rs`) builds the service's `Config` from three
layers: the environment variables, the JSON file named by `--config` (or
`config.json` in the working directory), and the `#[serde(default ...)]` of each
field.  What it reads from outside is `LoadEnv`: the parsed `--config`, the
variables as `env::var` sees them once `dotenv()` has run, whether `metadata`,
`File::open` and `read_to_string` succeed, and the keys `serde_json` finds in the
file's JSON object (`ConfigFile`, `none` where a key is absent).  The constants
of the crate root that some defaults read (`DEFAULT_RPC_ADDR` and the others) are
not among the sources, so they are a parameter, `CrateConsts`.

The numeric variables go through `str::parse::<u64>()`, modelled as core's
`from_str_radix` reads a text (`parseU64`), and a text it rejects makes the
`unwrap` panic with the error's kind in the message.  What `to_string` writes for
a `u64` is read back as the same value (`parseUnwrap_toString`).

* **The code is the layered design, with two exceptions**
  (`applyEnvOverrides_withDefaults`): every setting is the environment's value,
  else the file's, else the default (`ConfigFile.overlay`, then
  `ConfigFile.withDefaults`), except that
  - with no `--config` and no `config.json`, `load` returns the defaults and
    reads **no environment variable at all**;
  - the file's `quic_proxy_addr` never survives: the setting is
    `QUIC_PROXY_ADDR` alone, `None` when the variable is unset.
* A flag variable (`PG_ENABLED`, `USE_GRPC`) turns its flag on whatever its
  value, `"false"` included, and no variable can turn a flag off (`envLayer`).
* Failing to open, read or parse the file returns an `Err` under that step's
  context, before any variable is read; a numeric variable that is not a `u64`
  panics, the first of `FANOUT_SIZE`, `MAX_RETRIES`, `RETRY_TIMEOUT` deciding the
  message.
-/

namespace LiteRpc.Cli

/-! ## `str::parse::<u64>()` -/

/-- `core::num::IntErrorKind`, as the parse of a `u64` reports it. -/
inductive IntErrorKind where
  | empty
  | invalidDigit
  | posOverflow
deriving DecidableEq, Repr

/-- The name the `Debug` of a `ParseIntError` prints for its kind. -/
def IntErrorKind.name : IntErrorKind → String
  | .empty => "Empty"
  | .invalidDigit => "InvalidDigit"
  | .posOverflow => "PosOverflow"

/-- One turn of the digit loop of `u64::from_str_radix(src, 10)`: the character
must be an ASCII decimal digit (`to_digit(10)`, checked before the product is
used), and `result * 10 + digit` must fit in a `u64`, below `UInt64.size = 2 ^ 64`
(`checked_mul`, then `checked_add`). -/
def pushDigit (result : Nat) (c : Char) : Except IntErrorKind Nat :=
  if c.isDigit then
    if result * 10 + (c.toNat - '0'.toNat) < UInt64.size then .ok (result * 10 + (c.toNat - '0'.toNat))
    else .error .posOverflow
  else .error .invalidDigit

/-- `str::parse::<u64>()`: an empty text, or a lone sign, is rejected; one leading
`+` is skipped; then every character must be a digit and the value must fit in
64 bits.  A `-` is a digit like any other letter for an unsigned type, so it is
rejected. -/
def parseU64 (src : String) : Except IntErrorKind UInt64 :=
  match src.toList with
  | [] => .error .empty
  | ['+'] | ['-'] => .error .invalidDigit
  | '+' :: digits => UInt64.ofNat <$> digits.foldlM pushDigit 0
  | digits => UInt64.ofNat <$> digits.foldlM pushDigit 0

/-! ### What the parse accepts -/

/-- The value of `result * 10 + digit`, as the digit loop computes it. -/
def decimalStep (r : Nat) (c : Char) : Nat := r * 10 + (c.toNat - '0'.toNat)

/-- The characters after the one leading `+` that `from_str_radix` skips. -/
def digitsOf (text : String) : List Char :=
  match text.toList with
  | '+' :: digits => digits
  | digits => digits

/-- The text of a `u64`: an optional `+`, then one or more ASCII digits, of value
below `2 ^ 64`. -/
def IsU64Literal (text : String) : Prop :=
  digitsOf text ≠ [] ∧ (∀ c ∈ digitsOf text, c.isDigit) ∧
    (digitsOf text).foldl decimalStep 0 < UInt64.size

instance : DecidablePred IsU64Literal := fun _ => inferInstanceAs (Decidable (_ ∧ _ ∧ _))

theorem le_foldl_decimalStep (cs : List Char) (r : Nat) : r ≤ cs.foldl decimalStep r := by
  induction cs generalizing r with
  | nil => exact Nat.le_refl r
  | cons c cs ih => exact Nat.le_trans (by unfold decimalStep; omega) (ih _)

theorem pushDigit_eq_ok (r r' : Nat) (c : Char) :
    pushDigit r c = .ok r' ↔ c.isDigit ∧ decimalStep r c < UInt64.size ∧ r' = decimalStep r c := by
  unfold pushDigit decimalStep
  split_ifs with hc hlt
  · exact ⟨fun h => ⟨hc, hlt, (Except.ok.inj h).symm⟩, fun ⟨_, _, h⟩ => h ▸ rfl⟩
  · exact ⟨(fun h => nomatch h), fun ⟨_, h, _⟩ => absurd h hlt⟩
  · exact ⟨(fun h => nomatch h), fun ⟨h, _⟩ => absurd h hc⟩

theorem foldlM_pushDigit_eq_ok (cs : List Char) (r n : Nat) (hr : r < UInt64.size) :
    cs.foldlM pushDigit r = .ok n ↔
      (∀ c ∈ cs, c.isDigit) ∧ cs.foldl decimalStep r < UInt64.size ∧ n = cs.foldl decimalStep r := by
  induction cs generalizing r with
  | nil =>
    exact ⟨fun h => ⟨fun _ h => absurd h (List.not_mem_nil _), hr, (Except.ok.inj h).symm⟩,
      fun ⟨_, _, h⟩ => h ▸ rfl⟩
  | cons c cs ih =>
    rw [List.foldlM_cons, List.foldl_cons]
    cases h : pushDigit r c with
    | error e =>
      change (Except.error e : Except IntErrorKind Nat) = .ok n ↔ _
      refine ⟨(fun h => nomatch h), fun ⟨hd, hlt, _⟩ => ?_⟩
      have hstep := le_foldl_decimalStep cs (decimalStep r c)
      have := (pushDigit_eq_ok r _ c).2 ⟨hd c (List.mem_cons_self _ _), by omega, rfl⟩
      rw [h] at this
      cases this
    | ok r' =>
      obtain ⟨hd, hlt, rfl⟩ := (pushDigit_eq_ok r r' c).1 h
      change cs.foldlM pushDigit (decimalStep r c) = .ok n ↔ _
      rw [ih _ hlt, List.forall_mem_cons]
      simp only [hd, true_and]

theorem map_foldlM_pushDigit_eq_ok (cs : List Char) (n : UInt64) :
    UInt64.ofNat <$> cs.foldlM pushDigit 0 = .ok n ↔
      ((∀ c ∈ cs, c.isDigit) ∧ cs.foldl decimalStep 0 < UInt64.size) ∧
        n = UInt64.ofNat (cs.foldl decimalStep 0) := by
  have h0 : 0 < UInt64.size := by decide
  cases h : cs.foldlM pushDigit 0 with
  | error e =>
    refine ⟨(fun h => nomatch h), fun ⟨⟨hd, hlt⟩, _⟩ => ?_⟩
    rw [(foldlM_pushDigit_eq_ok cs 0 _ h0).2 ⟨hd, hlt, rfl⟩] at h
    cases h
  | ok m =>
    obtain ⟨hd, hlt, rfl⟩ := (foldlM_pushDigit_eq_ok cs 0 m h0).1 h
    exact ⟨fun h => ⟨⟨hd, hlt⟩, (Except.ok.inj h).symm⟩, fun ⟨_, h⟩ => h ▸ rfl⟩

theorem digitsOf_of_ne_plus (l : List Char) (h : ∀ ds, l = '+' :: ds → False) :
    digitsOf ⟨l⟩ = l := by
  unfold digitsOf
  split
  · next ds heq => exact (h ds heq).elim
  · rfl

/-- The parse of a `u64` accepts exactly the texts of `IsU64Literal`, with their
decimal value: checking each step for overflow is the same as checking the end
value, which is the largest one. -/
theorem parseU64_eq_ok (text : String) (n : UInt64) :
    parseU64 text = .ok n ↔
      IsU64Literal text ∧ n = UInt64.ofNat ((digitsOf text).foldl decimalStep 0) := by
  obtain ⟨l⟩ := text
  unfold parseU64 IsU64Literal
  simp only [String.toList]
  split
  · simp [digitsOf]
  · simp [digitsOf]
  · simp [digitsOf, show '-'.isDigit = false by decide]
  · next ds hds =>
    rw [map_foldlM_pushDigit_eq_ok]
    exact ⟨fun ⟨h, e⟩ => ⟨⟨hds, h⟩, e⟩, fun ⟨⟨_, h⟩, e⟩ => ⟨h, e⟩⟩
  · next _ h0 _ _ hplus =>
    rw [digitsOf_of_ne_plus l hplus, map_foldlM_pushDigit_eq_ok]
    exact ⟨fun ⟨h, e⟩ => ⟨⟨h0, h⟩, e⟩, fun ⟨⟨_, h⟩, e⟩ => ⟨h, e⟩⟩

example : IsU64Literal "+10" ∧ ¬ IsU64Literal " 10" ∧ ¬ IsU64Literal "-1" ∧
    ¬ IsU64Literal "18446744073709551616" := by decide

/-! ## The configuration -/

/-- How `Config::load` fails. -/
inductive Failure where
  /-- An `Err` handed back by `?`, shown by the `context` it was given. -/
  | err (context : String)
  /-- A panic, with its message. -/
  | panic (msg : String)
deriving DecidableEq, Repr

/-- The panic message of `unwrap` on the `ParseIntError` of `kind`. -/
def parseUnwrapMessage (kind : IntErrorKind) : String :=
  "called `Result::unwrap()` on an `Err` value: ParseIntError \x7b kind: " ++ kind.name ++ " \x7d"

/-- `text.parse().unwrap()` for a `u64` setting. -/
def parseUnwrap (text : String) : Except Failure UInt64 :=
  (parseU64 text).mapError fun kind => .panic (parseUnwrapMessage kind)

/-! ### Reading back what `to_string` writes -/

theorem digitChar_decimal : ∀ k, k < 10 →
    (Nat.digitChar k).isDigit = true ∧ (Nat.digitChar k).toNat - '0'.toNat = k := by
  decide

/-- The digit loop of `to_string` (`Nat.toDigits 10`) puts the digits of `n` in
front of `ds`: at least one, digits only, and the parse reads them as `n`, then
goes on with `ds`. -/
theorem toDigitsCore_decimal : ∀ {fuel n : Nat} {ds : List Char}, n < fuel → (∀ c ∈ ds, c.isDigit) →
    Nat.toDigitsCore 10 fuel n ds ≠ [] ∧ (∀ c ∈ Nat.toDigitsCore 10 fuel n ds, c.isDigit) ∧
      (Nat.toDigitsCore 10 fuel n ds).foldl decimalStep 0 = ds.foldl decimalStep n
  | 0, n, _, h, _ => absurd h (Nat.not_lt_zero n)
  | fuel + 1, n, ds, h, hds => by
    obtain ⟨hd, hv⟩ := digitChar_decimal (n % 10) (Nat.mod_lt n (by decide))
    have hds' : ∀ c ∈ Nat.digitChar (n % 10) :: ds, c.isDigit := List.forall_mem_cons.2 ⟨hd, hds⟩
    have hstep : decimalStep (n / 10) (Nat.digitChar (n % 10)) = n := by
      rw [decimalStep, hv]; omega
    have hunfold : Nat.toDigitsCore 10 (fuel + 1) n ds =
        if n / 10 = 0 then Nat.digitChar (n % 10) :: ds
        else Nat.toDigitsCore 10 fuel (n / 10) (Nat.digitChar (n % 10) :: ds) := rfl
    rw [hunfold]
    split
    · next h0 =>
      refine ⟨List.cons_ne_nil _ _, hds', ?_⟩
      rw [List.foldl_cons, decimalStep, hv]
      congr 1
      omega
    · next h0 =>
      have hlt : n / 10 < fuel := by omega
      obtain ⟨hne, hall, hval⟩ := toDigitsCore_decimal hlt hds'
      exact ⟨hne, hall, by rw [hval, List.foldl_cons, hstep]⟩

/-- The decimal text `to_string` prints for `m`: digits only, at least one, of
value `m`. -/
theorem toDigits_decimal (m : Nat) :
    Nat.toDigits 10 m ≠ [] ∧ (∀ c ∈ Nat.toDigits 10 m, c.isDigit) ∧
      (Nat.toDigits 10 m).foldl decimalStep 0 = m :=
  toDigitsCore_decimal (Nat.lt_succ_self m) (fun _ h => absurd h (List.not_mem_nil _))

/-- A text whose digits are those `to_string` prints for `n` is read back as `n`. -/
theorem parseUnwrap_of_digitsOf {n : UInt64} {text : String}
    (h : digitsOf text = Nat.toDigits 10 n.toNat) : parseUnwrap text = .ok n := by
  obtain ⟨hne, hall, hval⟩ := toDigits_decimal n.toNat
  have hlit : IsU64Literal text := by
    refine ⟨?_, ?_, ?_⟩ <;> rw [h]
    exacts [hne, hall, by rw [hval]; exact UInt64.toNat_lt_size n]
  have hn : n = UInt64.ofNat ((digitsOf text).foldl decimalStep 0) := by
    rw [h, hval]
    exact (UInt64.toNat.inj (UInt64.toNat_ofNat_of_lt (UInt64.toNat_lt_size n))).symm
  rw [parseUnwrap, (parseU64_eq_ok text n).2 ⟨hlit, hn⟩]
  rfl

/-- **A number written by `to_string` is read back as itself.**  For every `u64`,
its decimal text, with or without one leading `+`, passes `text.parse().unwrap()`
of the numeric overrides of `Config::load` without a panic, as the same value. -/
theorem parseUnwrap_toString (n : UInt64) :
    parseUnwrap (toString n) = .ok n ∧ parseUnwrap ("+" ++ toString n) = .ok n := by
  have hall := (toDigits_decimal n.toNat).2.1
  refine ⟨parseUnwrap_of_digitsOf (digitsOf_of_ne_plus _ fun ds hds => ?_),
    parseUnwrap_of_digitsOf rfl⟩
  have hmem : '+' ∈ Nat.toDigits 10 n.toNat := hds ▸ List.mem_cons_self _ _
  exact absurd (hall '+' hmem) (by decide)

/-- `usize`, on the 64-bit targets the service runs on. -/
abbrev Usize := UInt64

/-- `Config`. -/
structure Config where
  rpcAddr : String
  wsAddr : String
  liteRpcHttpAddr : String
  liteRpcWsAddr : String
  fanoutSize : UInt64
  enablePostgres : Bool
  identityKeypair : Option String
  prometheusAddr : String
  maximumRetriesPerTx : Usize
  transactionRetryAfterSecs : UInt64
  quicProxyAddr : Option String
  useGrpc : Bool
  grpcAddr : String
  grpcXToken : Option String
deriving DecidableEq, Repr

/-- The keys of a config file's JSON object, with their values as `serde_json`
reads them for `Config`'s fields; `none` where the key is absent.  For an
`Option<String>` field a `null` is `none` too, which is what serde makes of it. -/
structure ConfigFile where
  rpcAddr : Option String := none
  wsAddr : Option String := none
  liteRpcHttpAddr : Option String := none
  liteRpcWsAddr : Option String := none
  fanoutSize : Option UInt64 := none
  enablePostgres : Option Bool := none
  identityKeypair : Option String := none
  prometheusAddr : Option String := none
  maximumRetriesPerTx : Option Usize := none
  transactionRetryAfterSecs : Option UInt64 := none
  quicProxyAddr : Option String := none
  useGrpc : Option Bool := none
  grpcAddr : Option String := none
  grpcXToken : Option String := none
deriving DecidableEq, Repr

/-- The constants of the crate root that the default functions return. -/
structure CrateConsts where
  defaultRpcAddr : String
  defaultWsAddr : String
  defaultFanoutSize : UInt64
  maxRetries : Usize
  defaultRetryTimeout : UInt64
  defaultGrpcAddr : String

/-- `Config::default_lite_rpc_http_addr`. -/
def defaultLiteRpcHttpAddr : String := "[::]:8890"

/-- `Config::default_lite_rpc_ws_addr`. -/
def defaultLiteRpcWsAddr : String := "[::]:8891"

/-- `Config::default_prometheus_addr`. -/
def defaultPrometheusAddr : String := "[::]:9091"

/-- The `Config` that serde's derived `Deserialize` builds from the keys of the
object: an absent key takes its `#[serde(default = "...")]` function, a bare
`#[serde(default)]` takes `Default::default()` (`false`, `None`). -/
def ConfigFile.withDefaults (k : CrateConsts) (f : ConfigFile) : Config where
  rpcAddr := f.rpcAddr.getD k.defaultRpcAddr
  wsAddr := f.wsAddr.getD k.defaultWsAddr
  liteRpcHttpAddr := f.liteRpcHttpAddr.getD defaultLiteRpcHttpAddr
  liteRpcWsAddr := f.liteRpcWsAddr.getD defaultLiteRpcWsAddr
  fanoutSize := f.fanoutSize.getD k.defaultFanoutSize
  enablePostgres := f.enablePostgres.getD false
  identityKeypair := f.identityKeypair
  prometheusAddr := f.prometheusAddr.getD defaultPrometheusAddr
  maximumRetriesPerTx := f.maximumRetriesPerTx.getD k.maxRetries
  transactionRetryAfterSecs := f.transactionRetryAfterSecs.getD k.defaultRetryTimeout
  quicProxyAddr := f.quicProxyAddr
  useGrpc := f.useGrpc.getD false
  grpcAddr := f.grpcAddr.getD k.defaultGrpcAddr
  grpcXToken := f.grpcXToken

/-! ## `Config::load` -/

/-- What `Config::load` reads from outside the program. -/
structure LoadEnv where
  /-- The `--config` argument, as clap parses it. -/
  configArg : Option String
  /-- `env::var`, once `dotenv()` has loaded `.env`: `none` for a variable that is
  not set or not unicode, which every call here treats alike. -/
  var : String → Option String
  /-- Whether `tokio::fs::metadata` succeeds on a path. -/
  metadataOk : String → Bool
  /-- Whether `File::open` succeeds on a path. -/
  openOk : String → Bool
  /-- `read_to_string` on the opened file: its text, or `none` on an error. -/
  readToString : String → Option String
  /-- `serde_json::from_str::<Config>` on a text: the keys of its object, or `none`
  when the text is not a JSON object of the right shape. -/
  fromStr : String → Option ConfigFile

/-- The file `Config::load` looks for without `--config`. -/
def defaultConfigPath : String := "config.json"

/-- The context of a failed `File::open`. -/
def errorOpeningConfigFile : String := "Error opening config file"

/-- The context of a failed `read_to_string`. -/
def errorReadingConfigFile : String := "Error reading config file"

/-- The context of a failed `serde_json::from_str`. -/
def errorParsingConfigFile : String := "Error parsing config file"

/-- The file `Config::load` reads: the `--config` argument, else `config.json` when
`metadata` finds it; `none` is the early `return` with the defaults. -/
def configPath (e : LoadEnv) : Option String :=
  match e.configArg with
  | some config => some config
  | none => if e.metadataOk defaultConfigPath then some defaultConfigPath else none

/-- Opening, reading and parsing the config file, each `?` under its `context`. -/
def readConfigFile (e : LoadEnv) (path : String) : Except Failure ConfigFile :=
  if e.openOk path then
    match e.readToString path with
    | none => .error (.err errorReadingConfigFile)
    | some config =>
      match e.fromStr config with
      | none => .error (.err errorParsingConfigFile)
      | some file => .ok file
  else .error (.err errorOpeningConfigFile)

/-- `env::var(key).map(|text| text.parse().unwrap()).unwrap_or(field)`, for a
numeric setting. -/
def parseOverride (value : Option String) (field : UInt64) : Except Failure UInt64 :=
  match value with
  | some text => parseUnwrap text
  | none => .ok field

/-- The environment overrides of `Config::load`, in the order of the source. -/
def applyEnvOverrides (var : String → Option String) (config : Config) :
    Except Failure Config := do
  let rpcAddr := (var "RPC_ADDR").getD config.rpcAddr
  let wsAddr := (var "WS_ADDR").getD config.wsAddr
  let liteRpcHttpAddr := (var "LITE_RPC_HTTP_ADDR").getD config.liteRpcHttpAddr
  let liteRpcWsAddr := (var "LITE_RPC_WS_ADDR").getD config.liteRpcWsAddr
  let fanoutSize ← parseOverride (var "FANOUT_SIZE") config.fanoutSize
  let enablePostgres := ((var "PG_ENABLED").map fun _ => true).getD config.enablePostgres
  let identityKeypair := ((var "IDENTITY").map some).getD config.identityKeypair
  let prometheusAddr := (var "PROMETHEUS_ADDR").getD config.prometheusAddr
  let maximumRetriesPerTx ← parseOverride (var "MAX_RETRIES") config.maximumRetriesPerTx
  let transactionRetryAfterSecs ←
    parseOverride (var "RETRY_TIMEOUT") config.transactionRetryAfterSecs
  let quicProxyAddr := var "QUIC_PROXY_ADDR"
  let useGrpc := ((var "USE_GRPC").map fun _ => true).getD config.useGrpc
  let grpcAddr := (var "GRPC_ADDR").getD config.grpcAddr
  let grpcXToken := ((var "GRPC_X_TOKEN").map some).getD config.grpcXToken
  return { rpcAddr, wsAddr, liteRpcHttpAddr, liteRpcWsAddr, fanoutSize, enablePostgres,
           identityKeypair, prometheusAddr, maximumRetriesPerTx, transactionRetryAfterSecs,
           quicProxyAddr, useGrpc, grpcAddr, grpcXToken }

/-- `Config::load`.  Without a file it returns `serde_json::from_str("{}")`, the
defaults of every field. -/
def load (k : CrateConsts) (e : LoadEnv) : Except Failure Config :=
  match configPath e with
  | none => .ok (ConfigFile.withDefaults k {})
  | some path => do
    let file ← readConfigFile e path
    applyEnvOverrides e.var (file.withDefaults k)

/-! ## The layered design -/

/-- One layer of settings over another: a key the upper layer sets wins. -/
def ConfigFile.overlay (upper lower : ConfigFile) : ConfigFile where
  rpcAddr := upper.rpcAddr.or lower.rpcAddr
  wsAddr := upper.wsAddr.or lower.wsAddr
  liteRpcHttpAddr := upper.liteRpcHttpAddr.or lower.liteRpcHttpAddr
  liteRpcWsAddr := upper.liteRpcWsAddr.or lower.liteRpcWsAddr
  fanoutSize := upper.fanoutSize.or lower.fanoutSize
  enablePostgres := upper.enablePostgres.or lower.enablePostgres
  identityKeypair := upper.identityKeypair.or lower.identityKeypair
  prometheusAddr := upper.prometheusAddr.or lower.prometheusAddr
  maximumRetriesPerTx := upper.maximumRetriesPerTx.or lower.maximumRetriesPerTx
  transactionRetryAfterSecs := upper.transactionRetryAfterSecs.or lower.transactionRetryAfterSecs
  quicProxyAddr := upper.quicProxyAddr.or lower.quicProxyAddr
  useGrpc := upper.useGrpc.or lower.useGrpc
  grpcAddr := upper.grpcAddr.or lower.grpcAddr
  grpcXToken := upper.grpcXToken.or lower.grpcXToken

/-- The settings the environment gives, each variable read as `Config::load` reads
it: a text as it is, a flag set by any value, a number parsed (a bad one panics,
in the order of the source). -/
def envLayer (var : String → Option String) : Except Failure ConfigFile := do
  let fanoutSize ← (var "FANOUT_SIZE").mapM parseUnwrap
  let maximumRetriesPerTx ← (var "MAX_RETRIES").mapM parseUnwrap
  let transactionRetryAfterSecs ← (var "RETRY_TIMEOUT").mapM parseUnwrap
  return { rpcAddr := var "RPC_ADDR", wsAddr := var "WS_ADDR",
           liteRpcHttpAddr := var "LITE_RPC_HTTP_ADDR", liteRpcWsAddr := var "LITE_RPC_WS_ADDR",
           fanoutSize, enablePostgres := (var "PG_ENABLED").map fun _ => true,
           identityKeypair := var "IDENTITY", prometheusAddr := var "PROMETHEUS_ADDR",
           maximumRetriesPerTx, transactionRetryAfterSecs,
           quicProxyAddr := var "QUIC_PROXY_ADDR", useGrpc := (var "USE_GRPC").map fun _ => true,
           grpcAddr := var "GRPC_ADDR", grpcXToken := var "GRPC_X_TOKEN" }

/-- The layered configuration: the environment over the file over the defaults. -/
def layered (k : CrateConsts) (env file : ConfigFile) : Config :=
  (env.overlay file).withDefaults k

section Layers

variable {α : Type}

theorem getD_or (o o' : Option α) (d : α) : (o.or o').getD d = o.getD (o'.getD d) := by
  cases o <;> rfl

theorem getD_map_some (o o' : Option α) : (o.map some).getD o' = o.or o' := by
  cases o <;> rfl

end Layers

theorem parseOverride_eq (value : Option String) (field : UInt64) :
    parseOverride value field = (fun o => o.getD field) <$> value.mapM parseUnwrap := by
  cases value with
  | none => rfl
  | some text =>
    show parseUnwrap text = (fun o => o.getD field) <$> (some <$> parseUnwrap text)
    cases parseUnwrap text <;> rfl

/-- The overrides put the environment layer over a deserialized file, except for
`quic_proxy_addr`, which they overwrite with the variable alone. -/
theorem applyEnvOverrides_withDefaults (k : CrateConsts) (var : String → Option String)
    (file : ConfigFile) :
    applyEnvOverrides var (file.withDefaults k) =
      (fun env => { layered k env file with quicProxyAddr := env.quicProxyAddr }) <$>
        envLayer var := by
  simp only [applyEnvOverrides, envLayer, parseOverride_eq]
  cases (var "FANOUT_SIZE").mapM parseUnwrap <;> try rfl
  cases (var "MAX_RETRIES").mapM parseUnwrap <;> try rfl
  cases (var "RETRY_TIMEOUT").mapM parseUnwrap <;> try rfl
  simp only [layered, ConfigFile.withDefaults, ConfigFile.overlay, getD_or, getD_map_some]
  rfl

example (k : CrateConsts) :
    load k { configArg := none, var := fun _ => some "127.0.0.1:1",
             metadataOk := fun _ => false, openOk := fun _ => true,
             readToString := fun _ => none, fromStr := fun _ => none } =
      .ok (ConfigFile.withDefaults k {}) := rfl

example (k : CrateConsts) :
    (load k { configArg := some "lite-rpc.json", var := fun _ => none,
              metadataOk := fun _ => false, openOk := fun _ => true,
              readToString := fun _ => some "",
              fromStr := fun _ => some { quicProxyAddr := some "127.0.0.1:11111" } }).map
      Config.quicProxyAddr = .ok none := rfl

example :
    (envLayer fun key => if key = "PG_ENABLED" then some "false" else none).map
      ConfigFile.enablePostgres = .ok (some true) := rfl

/-! ## When the service panics at start -/

/-- The variables `Config::load` parses as a `u64`, in the order it parses them. -/
def numericVars : List String := ["FANOUT_SIZE", "MAX_RETRIES", "RETRY_TIMEOUT"]

theorem parseUnwrap_cases (text : String) :
    (IsU64Literal text ∧ ∃ n, parseUnwrap text = .ok n) ∨
      (¬ IsU64Literal text ∧ ∃ msg, parseUnwrap text = .error (.panic msg)) := by
  unfold parseUnwrap
  cases h : parseU64 text with
  | ok n => exact .inl ⟨((parseU64_eq_ok text n).1 h).1, n, rfl⟩
  | error kind =>
    refine .inr ⟨fun hl => ?_, _, rfl⟩
    rw [(parseU64_eq_ok text _).2 ⟨hl, rfl⟩] at h
    cases h

theorem mapM_parseUnwrap_cases (o : Option String) :
    ((∀ text, o = some text → IsU64Literal text) ∧ ∃ v, o.mapM parseUnwrap = .ok v) ∨
      ((∃ text, o = some text ∧ ¬ IsU64Literal text) ∧
        ∃ msg, o.mapM parseUnwrap = .error (.panic msg)) := by
  cases o with
  | none => exact .inl ⟨(fun _ h => nomatch h), none, rfl⟩
  | some text =>
    rcases parseUnwrap_cases text with ⟨hl, n, h⟩ | ⟨hl, msg, h⟩
    · exact .inl ⟨fun _ h => Option.some.inj h ▸ hl, some n, by simp only [Option.mapM, h]; rfl⟩
    · exact .inr ⟨⟨text, rfl, hl⟩, msg, by simp only [Option.mapM, h]; rfl⟩

theorem exists_numericVars {P : String → Prop} :
    (∃ key ∈ numericVars, P key) ↔ P "FANOUT_SIZE" ∨ P "MAX_RETRIES" ∨ P "RETRY_TIMEOUT" := by
  simp [numericVars]

/-- The environment layer fails only by a panic, and exactly when a numeric
variable holds a text that is not a `u64`. -/
theorem envLayer_panics_iff (var : String → Option String) :
    ((∃ msg, envLayer var = .error (.panic msg)) ↔
      ∃ key ∈ numericVars, ∃ text, var key = some text ∧ ¬ IsU64Literal text) ∧
    ∀ f, envLayer var = .error f → ∃ msg, f = .panic msg := by
  rw [exists_numericVars]
  rcases mapM_parseUnwrap_cases (var "FANOUT_SIZE") with ⟨ok1, v1, h1⟩ | ⟨bad1, m1, h1⟩
  · rcases mapM_parseUnwrap_cases (var "MAX_RETRIES") with ⟨ok2, v2, h2⟩ | ⟨bad2, m2, h2⟩
    · rcases mapM_parseUnwrap_cases (var "RETRY_TIMEOUT") with ⟨ok3, v3, h3⟩ | ⟨bad3, m3, h3⟩
      · simp only [envLayer, h1, h2, h3]
        refine ⟨⟨(fun ⟨_, h⟩ => nomatch h), ?_⟩, fun _ h => nomatch h⟩
        rintro (⟨t, ht, hn⟩ | ⟨t, ht, hn⟩ | ⟨t, ht, hn⟩)
        exacts [(hn (ok1 t ht)).elim, (hn (ok2 t ht)).elim, (hn (ok3 t ht)).elim]
      · simp only [envLayer, h1, h2, h3]
        exact ⟨⟨fun _ => .inr (.inr bad3), fun _ => ⟨m3, rfl⟩⟩, fun _ h => ⟨m3, (Except.error.inj h).symm⟩⟩
    · simp only [envLayer, h1, h2]
      exact ⟨⟨fun _ => .inr (.inl bad2), fun _ => ⟨m2, rfl⟩⟩, fun _ h => ⟨m2, (Except.error.inj h).symm⟩⟩
  · simp only [envLayer, h1]
    exact ⟨⟨fun _ => .inl bad1, fun _ => ⟨m1, rfl⟩⟩, fun _ h => ⟨m1, (Except.error.inj h).symm⟩⟩

theorem readConfigFile_error (e : LoadEnv) (path : String) (f : Failure)
    (h : readConfigFile e path = .error f) : ∃ context, f = .err context := by
  unfold readConfigFile at h
  split at h
  · split at h
    · exact ⟨_, (Except.error.inj h).symm⟩
    · split at h
      · exact ⟨_, (Except.error.inj h).symm⟩
      · cases h
  · exact ⟨_, (Except.error.inj h).symm⟩

/-- **The service panics at start exactly when it reads a config file and one of
`FANOUT_SIZE`, `MAX_RETRIES`, `RETRY_TIMEOUT` holds a text that is not a `u64`**
(an optional `+`, then ASCII digits, below `2 ^ 64`: no blank, no sign `-`, no
suffix).  Without a config file, or when the file cannot be opened, read or
parsed, the variables are never parsed. -/
theorem load_panics_iff (k : CrateConsts) (e : LoadEnv) :
    (∃ msg, load k e = .error (.panic msg)) ↔
      (∃ path file, configPath e = some path ∧ readConfigFile e path = .ok file) ∧
        ∃ key ∈ numericVars, ∃ text, e.var key = some text ∧ ¬ IsU64Literal text := by
  unfold load
  cases hp : configPath e with
  | none => simp
  | some path =>
    dsimp only
    cases hr : readConfigFile e path with
    | error f =>
      obtain ⟨c, rfl⟩ := readConfigFile_error e path f hr
      refine iff_of_false (fun ⟨_, h⟩ => by cases h) fun ⟨⟨_, _, hq, hok⟩, _⟩ => ?_
      cases Option.some.inj hq
      rw [hr] at hok
      cases hok
    | ok file =>
      change (∃ msg, applyEnvOverrides e.var (file.withDefaults k) = .error (.panic msg)) ↔ _
      rw [applyEnvOverrides_withDefaults, (envLayer_panics_iff e.var).1.symm]
      cases envLayer e.var <;> simp [Functor.map, Except.map, hr]

end LiteRpc.Cli
