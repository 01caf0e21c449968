import Mathlib.Data.Nat.Digits.Defs
import Tess.Effects.Monitors
import Tess.Login.FailClosed

/-!
# The control of the emitter

What the variables may say about the emitter, and that nothing else is ever written to a device: a
control is opened only if some variable asks for it, with the payloads and the coordinates that the
variables spell, and at the camera that has just been opened or at a video device.
-/

namespace Tess

namespace Login

open Text Effects

/-! ## What the variables spell -/

/-- The digits, with or without a prefix. -/
def Written (text digits : Text) : Prop :=
  text = digits ∨ text = '0' :: 'x' :: digits ∨ text = '0' :: 'X' :: digits

/-- The text spells bytes, two digits a byte, with anything between the digits that is no digit. -/
def SpellsBytes (raw : Text) (bytes : List UInt8) : Prop :=
  byteLen raw ≤ maxInputLen ∧ bytes ≠ [] ∧
    ∃ digits, Written (cleaned raw) digits ∧ Hex.Denotes Hex.value digits bytes

/-- The digits of a number, the highest first. -/
def Numeral (digits : Text) (n : ℕ) : Prop :=
  ∃ vs, List.Forall₂ (fun c v => Hex.value c = some v) digits vs ∧ n = Nat.ofDigits 16 vs.reverse

/-- The text is a number, perhaps with a sign, and its digits are as many as one likes. -/
def SpellsNumber (raw : Text) (b : UInt8) : Prop :=
  byteLen (trim raw) ≤ 64 ∧ ∃ digits, digits ≠ [] ∧
    (Written (trim raw) digits ∨ Written (trim raw) ('+' :: digits)) ∧ Numeral digits b.toNat

theorem value_lt {c : Char} {v : ℕ} (h : Hex.value c = some v) : v < 16 :=
  (Hex.ofCode_eq_some.1 h).1

theorem written_stripHexPrefix (s : Text) : Written s (stripHexPrefix s) := by
  unfold stripHexPrefix
  split
  · exact .inr (.inl rfl)
  · exact .inr (.inr rfl)
  · exact .inl rfl

/-- A prefix is no number. -/
theorem stripHexPrefix_of_written {s digits : Text} (h : Written s digits)
    (hx : ∀ rest, digits ≠ '0' :: 'x' :: rest ∧ digits ≠ '0' :: 'X' :: rest) :
    stripHexPrefix s = digits := by
  obtain rfl | rfl | rfl := h
  · unfold stripHexPrefix
    split
    next rest => exact absurd rfl (hx rest).1
    next rest => exact absurd rfl (hx rest).2
    · rfl
  · rfl
  · rfl

theorem hexByte_pair {c d : Char} {hi lo : ℕ} (hc : Hex.value c = some hi)
    (hd : Hex.value d = some lo) : hexByte [c, d] = some (UInt8.ofNat (16 * hi + lo)) := by
  simp [hexByte, hc, hd]

variable {debug : Text → String}

/-- The bytes that are cut out of an even number of digits. -/
theorem mapM_parseHexByte {n : ℕ} {hex : Text} (hlen : hex.length = 2 * n)
    (hdigits : ∀ c ∈ hex, (Hex.value c).isSome = true) {bytes : List UInt8} :
    (Hex.chunks 2 hex).mapM (parseHexByte debug) = .ok bytes ↔ Hex.Denotes Hex.value hex bytes := by
  have hlt : ∀ c ∈ hex, ∃ x < 16, Hex.value c = some x := by
    intro c hc
    obtain ⟨v, hv⟩ := Option.isSome_iff_exists.1 (hdigits c hc)
    exact ⟨v, value_lt hv, hv⟩
  obtain ⟨bs, hbs⟩ := Hex.exists_denotes hlen hlt
  have hmap : (Hex.chunks 2 hex).mapM (parseHexByte debug) = .ok bs := by
    clear hlen hdigits hlt
    induction hbs with
    | nil => rfl
    | @cons c d hi lo b ds bs hc hd hb h ih =>
      have hbyte : parseHexByte debug [c, d] = .ok b := by
        rw [parseHexByte, hexByte_pair hc hd, ← hb, UInt8.ofNat_toNat]
      have hchunks : Hex.chunks 2 (c :: d :: ds) = [c, d] :: Hex.chunks 2 ds :=
        @Hex.chunks_append Char 2 (by decide) [c, d] rfl ds
      rw [hchunks, List.mapM_cons, hbyte, ih]
      rfl
  rw [hmap]
  exact ⟨fun h => Except.ok.inj h ▸ hbs, fun h => congrArg _ (hbs.unique h)⟩

theorem utf8Size_of_digit {c : Char} (h : (Hex.value c).isSome = true) : c.utf8Size = 1 := by
  obtain ⟨v, hv⟩ := Option.isSome_iff_exists.1 h
  obtain ⟨hlt, hcode⟩ := Hex.ofCode_eq_some.1 hv
  have hsmall : c.toNat ≤ 127 := by omega
  exact Char.utf8Size_eq_one_iff.2 hsmall

theorem byteLen_eq_length {s : Text} (h : ∀ c ∈ s, (Hex.value c).isSome = true) :
    byteLen s = s.length := by
  induction s with
  | nil => rfl
  | cons c s ih =>
    simp only [List.mem_cons, forall_eq_or_imp] at h
    rw [byteLen_cons, utf8Size_of_digit h.1, ih h.2, List.length_cons, Nat.add_comm]

/-- What begins with a digit and goes on with digits does not begin with a prefix. -/
theorem not_prefixed {digits : Text} (h : ∀ c ∈ digits, (Hex.value c).isSome = true)
    (rest : Text) : digits ≠ '0' :: 'x' :: rest ∧ digits ≠ '0' :: 'X' :: rest := by
  constructor <;> rintro rfl <;> simp only [List.mem_cons, forall_eq_or_imp] at h <;>
    exact absurd h.2.1 (by decide)

/-- **The payloads that are accepted** are those that spell bytes. -/
theorem parseHexPayload_iff {raw : Text} {bytes : List UInt8} :
    parseHexPayload debug raw = .ok bytes ↔ SpellsBytes raw bytes := by
  constructor
  · intro h
    unfold parseHexPayload at h
    dsimp only at h
    split_ifs at h with hlen hnil hodd hdigits
    have hsome : ∀ c ∈ stripHexPrefix (cleaned raw), (Hex.value c).isSome = true := by
      simpa [Option.isSome_iff_ne_none] using hdigits
    rw [byteLen_eq_length hsome] at hodd
    have hdenotes := (mapM_parseHexByte (n := (stripHexPrefix (cleaned raw)).length / 2)
      (by omega) hsome).1 h
    refine ⟨by omega, ?_, _, written_stripHexPrefix _, hdenotes⟩
    rintro rfl
    exact hnil (List.length_eq_zero_iff.1 hdenotes.length)
  · rintro ⟨hlen, hne, digits, hwritten, hdenotes⟩
    have hstrip := stripHexPrefix_of_written hwritten (not_prefixed hdenotes.digits)
    have hpos := List.length_pos_iff.2 hne
    have hlength := hdenotes.length
    have hnil : digits ≠ [] := by
      rintro rfl
      rw [List.length_nil] at hlength
      omega
    unfold parseHexPayload
    dsimp only
    rw [if_neg (by omega), hstrip, if_neg hnil, byteLen_eq_length hdenotes.digits,
      if_neg (by omega), if_neg ?_]
    · exact (mapM_parseHexByte hlength hdenotes.digits).2 hdenotes
    · simpa [Option.isSome_iff_ne_none] using hdenotes.digits

/-! ## Numbers -/

theorem ofDigits_snoc (vs : List ℕ) (n d : ℕ) :
    Nat.ofDigits 16 (vs.reverse ++ [16 * n + d]) = Nat.ofDigits 16 ((d :: vs).reverse ++ [n]) := by
  rw [List.reverse_cons, List.append_assoc, Nat.ofDigits_append, Nat.ofDigits_append]
  simp only [List.cons_append, List.nil_append, Nat.ofDigits_cons, Nat.ofDigits_nil]
  ring

/-- A number does not get smaller by more digits. -/
theorem le_ofDigits (vs : List ℕ) (n : ℕ) : n ≤ Nat.ofDigits 16 (vs ++ [n]) := by
  rw [Nat.ofDigits_append, Nat.ofDigits_singleton]
  exact (Nat.le_mul_of_pos_left n (Nat.pow_pos (by omega))).trans (Nat.le_add_left ..)

theorem fromDigits_ok {digits : Text} {n m : ℕ} (hn : n < 256) :
    fromDigits n digits = .ok m ↔ m < 256 ∧
      ∃ vs, List.Forall₂ (fun c v => Hex.value c = some v) digits vs ∧
        m = Nat.ofDigits 16 (vs.reverse ++ [n]) := by
  induction digits generalizing n with
  | nil =>
    rw [fromDigits, Except.ok.injEq]
    constructor
    · rintro rfl
      exact ⟨hn, [], .nil, by simp⟩
    · rintro ⟨-, vs, hvs, rfl⟩
      cases hvs
      simp
  | cons c digits ih =>
    rw [fromDigits]
    cases hc : Hex.value c with
    | none =>
      refine ⟨nofun, ?_⟩
      rintro ⟨-, vs, hvs, -⟩
      cases hvs with
      | cons hv _ => exact nomatch hc.symm.trans hv
    | some d =>
      dsimp only
      split_ifs with hbig
      · refine ⟨nofun, ?_⟩
        rintro ⟨hm, vs, hvs, rfl⟩
        cases hvs with
        | cons hv _ =>
          obtain rfl := Option.some.inj (hc.symm.trans hv)
          rw [← ofDigits_snoc] at hm
          exact absurd ((le_ofDigits _ _).trans_lt hm) (by omega)
      · rw [ih (by omega)]
        refine and_congr_right fun _ => ⟨?_, ?_⟩
        · rintro ⟨vs, hvs, rfl⟩
          exact ⟨d :: vs, .cons hc hvs, ofDigits_snoc ..⟩
        · rintro ⟨vs, hvs, rfl⟩
          cases hvs with
          | cons hv hvs =>
            obtain rfl := Option.some.inj (hc.symm.trans hv)
            exact ⟨_, hvs, (ofDigits_snoc ..).symm⟩

theorem fromDigits_zero {digits : Text} {m : ℕ} :
    fromDigits 0 digits = .ok m ↔ m < 256 ∧ Numeral digits m := by
  rw [fromDigits_ok (by omega), Numeral]
  simp [Nat.ofDigits_append]

theorem Numeral.digits {digits : Text} {n : ℕ} (h : Numeral digits n) :
    ∀ c ∈ digits, (Hex.value c).isSome = true := by
  obtain ⟨vs, hvs, -⟩ := h
  induction hvs with
  | nil => simp
  | cons hc _ ih => simpa [hc] using ih

theorem Numeral.no_sign {rest : Text} {n : ℕ} : ¬ Numeral ('+' :: rest) n :=
  fun h => absurd (h.digits _ List.mem_cons_self) (by decide)

theorem fromStrRadix_ok {s : Text} {m : ℕ} :
    fromStrRadix s = .ok m ↔ m < 256 ∧
      ∃ digits, digits ≠ [] ∧ (s = digits ∨ s = '+' :: digits) ∧ Numeral digits m := by
  unfold fromStrRadix
  split
  · refine ⟨nofun, ?_⟩
    rintro ⟨-, digits, hne, rfl | ⟨⟨⟩⟩, -⟩
    exact absurd rfl hne
  · refine ⟨nofun, ?_⟩
    rintro ⟨-, digits, hne, rfl | h, hnum⟩
    · exact absurd hnum Numeral.no_sign
    · exact absurd (List.cons.inj h).2.symm hne
  next digits hne =>
    rw [fromDigits_zero]
    refine and_congr_right fun _ => ⟨fun h => ⟨digits, fun h' => hne (h' ▸ rfl), .inr rfl, h⟩, ?_⟩
    rintro ⟨digits', -, rfl | h, hnum⟩
    · exact absurd hnum Numeral.no_sign
    · rwa [(List.cons.inj h).2]
  next hnil _ hsign =>
    rw [fromDigits_zero]
    refine and_congr_right fun _ => ⟨fun h => ⟨s, hnil, .inl rfl, h⟩, ?_⟩
    rintro ⟨digits, -, rfl | rfl, hnum⟩
    · exact hnum
    · exact absurd rfl (hsign digits)

theorem parseByte_ok {s : Text} {b : UInt8} :
    parseByte debug s = .ok b ↔ fromStrRadix s = .ok b.toNat := by
  unfold parseByte
  cases hs : fromStrRadix s with
  | error e => simp
  | ok n =>
    have hn := (fromStrRadix_ok.1 hs).1
    rw [Except.ok.injEq, Except.ok.injEq, ← UInt8.toNat_inj, UInt8.toNat_ofNat',
      Nat.mod_eq_of_lt hn]

/-- **The numbers that are accepted.** -/
theorem parseHexU8_iff {raw : Text} {b : UInt8} :
    parseHexU8 debug raw = .ok b ↔ SpellsNumber raw b := by
  unfold parseHexU8
  dsimp only
  constructor
  · intro h
    split_ifs at h with hlen hnil
    obtain ⟨-, digits, hne, hsign, hnum⟩ := fromStrRadix_ok.1 (parseByte_ok.1 h)
    refine ⟨by omega, digits, hne, ?_, hnum⟩
    have hwritten := written_stripHexPrefix (trim raw)
    obtain hsign | hsign := hsign
    · exact .inl (hsign ▸ hwritten)
    · exact .inr (hsign ▸ hwritten)
  · rintro ⟨hlen, digits, hne, hwritten, hnum⟩
    have hstrip : stripHexPrefix (trim raw) = digits ∨
        stripHexPrefix (trim raw) = '+' :: digits := by
      obtain h | h := hwritten
      · exact .inl (stripHexPrefix_of_written h (not_prefixed hnum.digits))
      · exact .inr (stripHexPrefix_of_written h fun rest => by simp)
    rw [if_neg (by omega), if_neg ?_]
    · exact parseByte_ok.2 (fromStrRadix_ok.2 ⟨UInt8.toNat_lt b, digits, hne, hstrip, hnum⟩)
    · obtain h | h := hstrip
      · rwa [h]
      · rw [h]
        exact List.cons_ne_nil _ _

/-! ## What is opened -/

section Opened

variable {F : Type} (env : Pam.Env)

/-- A call that opens the control of an emitter. -/
def OpensEmitter : Op F → Prop
  | .openEmitter _ => True
  | _ => False

/-- The value of a variable as it is spelled there, or else the default. -/
def Chosen {α : Type} (spells : Text → α → Prop) (var : String) (default a : α) : Prop :=
  env var = none ∧ a = default ∨ ∃ raw, (env var).bind ofUtf8 = some raw ∧ spells raw a

/-- The path was resolved to a video device under `/dev`. -/
def VideoDevice (path : Mug.Sys.OsPath) (l : List (Event F)) : Prop :=
  ∃ resolved name, ⟨.canonicalize path, .ok resolved⟩ ∈ l ∧
    ⟨.isCharDevice resolved, .ok true⟩ ∈ l ∧ resolved.head? = some (utf8 "dev".toList) ∧
    resolved.getLast?.bind ofUtf8 = some name ∧ ∃ digits, name = "video".toList ++ digits ∧
      digits ≠ [] ∧ ∀ c ∈ digits, c.isDigit = true

/-- The emitter is at the node that a variable names, or else at the camera that was opened. -/
def Placed (node : Mug.Sys.OsPath) (l : List (Event F)) : Prop :=
  (env envEmitterNode = some node ∧ node ≠ [] ∧ VideoDevice node l) ∨
    (env envEmitterNode = none ∧ ∃ fd, ⟨.sys (.openFile node), .ok fd⟩ ∈ l)

/-- The emitter is as the variables say, after these calls. -/
structure Asked (emitter : BrioEmitter) (l : List (Event F)) : Prop where
  configured : emitterEnvConfigured env = true
  onPayload : Chosen env SpellsBytes envEmitterOn [0x01] emitter.onPayload
  offPayload : Chosen env SpellsBytes envEmitterOff [0x00] emitter.offPayload
  unit : Chosen env SpellsNumber envEmitterUnit brioEmitterUnit emitter.unit
  selector : Chosen env SpellsNumber envEmitterSelector brioEmitterSelector emitter.selector
  node : Placed env emitter.node l

/-- Only emitters that are asked for may be opened. -/
def onlyAsked : Monitor (Op.Res (F := F)) (List (Event F)) :=
  .history fun l o => ∀ emitter, o = .openEmitter emitter → Asked env emitter l

variable {env} {l : List (Event F)}

theorem envVar_notPresent {var : String} (h : envVar env var = .error .notPresent) :
    env var = none := by
  unfold envVar at h
  split at h
  next hnone => exact hnone
  · split at h
    · cases h
    · cases h

theorem emitterVar_ok {α : Type} {parse : Text → Except String α} {spells : Text → α → Prop}
    (hparse : ∀ raw a, parse raw = .ok a ↔ spells raw a) {expected var : String} {default a : α}
    (h : Ends (emitterVar env parse expected var default : Io F α) (.ok a) l) :
    Chosen env spells var default a ∧ l = [] := by
  unfold emitterVar at h
  split at h
  next raw hvar =>
    obtain ⟨hvalue, rfl⟩ := ends_ofResult_iff.1 h
    exact ⟨.inr ⟨raw, envVar_bind hvar, (hparse ..).1 (mapError_eq_ok.1 hvalue.symm)⟩, rfl⟩
  next hvar =>
    obtain ⟨hvalue, rfl⟩ := ends_pure_iff.1 h
    exact ⟨.inl ⟨envVar_notPresent hvar, Except.ok.inj hvalue⟩, rfl⟩
  · obtain ⟨⟨⟩, -⟩ := ends_throw_iff.1 h

theorem isV4l2VideoName_iff {name : Text} : isV4l2VideoName name = true ↔
    ∃ digits, name = "video".toList ++ digits ∧ digits ≠ [] ∧ ∀ c ∈ digits, c.isDigit = true := by
  unfold isV4l2VideoName
  split
  next n =>
    have hn : (!n.isEmpty && n.all Char.isDigit) = true ↔
        n ≠ [] ∧ ∀ c ∈ n, c.isDigit = true := by simp
    rw [hn]
    constructor
    · exact fun h => ⟨n, rfl, h⟩
    · rintro ⟨digits, hname, h⟩
      obtain rfl : n = digits := @List.append_cancel_left _ "video".toList _ _ hname
      exact h
  next hname =>
    refine ⟨nofun, ?_⟩
    rintro ⟨digits, rfl, -⟩
    exact absurd rfl (hname digits)

theorem validateDeviceNode_ok {var : String} {path : Mug.Sys.OsPath}
    (h : Ends (validateDeviceNode var path : Io F Unit) (.ok ()) l) : VideoDevice path l := by
  unfold validateDeviceNode at h
  obtain ⟨x, l₁, rfl, ⟨_, -, ⟨⟩, -⟩ | ⟨resolved, hx, h₁⟩⟩ := ends_ask_bind_iff.1 h
  obtain ⟨hdev, h₂⟩ := ends_ensure_bind h₁
  obtain ⟨hname, h₃⟩ := ends_ensure_bind h₂
  obtain ⟨y, l₂, rfl, ⟨_, -, ⟨⟩, -⟩ | ⟨isDevice, hy, h₄⟩⟩ := ends_ask_bind_iff.1 h₃
  obtain hchar := ends_ensure_ok h₄
  obtain rfl := osContext_ok.1 hx
  obtain rfl := osContext_ok.1 hy
  cases hlast : resolved.getLast?.bind ofUtf8 with
  | none =>
    rw [hlast] at hname
    cases hname
  | some name =>
    rw [hlast] at hname
    refine ⟨resolved, name, List.mem_cons_self, ?_, hdev, hlast, isV4l2VideoName_iff.1 hname⟩
    subst hchar
    exact List.mem_cons_of_mem _ List.mem_cons_self

theorem emitterNode_ok {capture node : Mug.Sys.OsPath}
    (h : Ends (emitterNode env capture : Io F Mug.Sys.OsPath) (.ok node) l) :
    (env envEmitterNode = some node ∧ node ≠ [] ∧ VideoDevice node l) ∨
      (env envEmitterNode = none ∧ node = capture) := by
  unfold emitterNode at h
  split at h
  next path hvar =>
    split_ifs at h with hempty
    · obtain ⟨⟨⟩, -⟩ := ends_throw_iff.1 h
    · obtain ⟨_, ⟨⟩, -⟩ | ⟨_, l₁, l₂, rfl, hvalid, hret⟩ := ends_bind_iff.1 h
      obtain ⟨hnode, rfl⟩ := ends_pure_iff.1 hret
      obtain rfl := Except.ok.inj hnode
      rw [List.append_nil]
      exact .inl ⟨hvar, hempty, validateDeviceNode_ok hvalid⟩
  next hvar =>
    obtain ⟨hnode, -⟩ := ends_pure_iff.1 h
    exact .inr ⟨hvar, Except.ok.inj hnode⟩

/-- A part that opens no emitter is of no concern. -/
theorem secures_noEmitter {α : Type} {x : Io F α} (hx : AllOps (fun o => ¬ OpensEmitter o) x) :
    (onlyAsked env).Secures x (fun r l' => ∃ l₁, l' = l ++ l₁ ∧ Ends x r l₁) l := by
  have hallowed : ∀ (o : Op F) (l : List (Event F)), ¬ OpensEmitter o → True →
      ∀ emitter, o = .openEmitter emitter → Asked env emitter l := by
    rintro _ l ho - emitter rfl
    exact absurd trivial ho
  refine (Monitor.secures_history hx hallowed (fun _ _ _ => id) trivial).mono ?_
  rintro r _ ⟨-, l₁, hl, hends, -⟩
  exact ⟨l₁, hl, hends⟩

/-- Go on with the value of a variable. -/
theorem secures_emitterVar {α β : Type} {parse : Text → Except String α} {spells : Text → α → Prop}
    (hparse : ∀ raw a, parse raw = .ok a ↔ spells raw a) {expected var : String} {default : α}
    {g : α → Io F β} {Q : Except (Stop Error) β → List (Event F) → Prop}
    (hok : ∀ a, Chosen env spells var default a → (onlyAsked env).Secures (g a) Q l)
    (herror : ∀ e l, Q (.error e) l) :
    (onlyAsked env).Secures (emitterVar env parse expected var default >>= g) Q l := by
  refine Monitor.Secures.bind ((secures_noEmitter (allOps_emitterVar ..)).mono ?_)
  rintro r _ ⟨l₁, rfl, hr⟩
  refine ⟨?_, fun e _ => herror e _⟩
  rintro a rfl
  obtain ⟨ha, rfl⟩ := emitterVar_ok hparse hr
  rw [List.append_nil]
  exact hok a ha

/-- The emitter that is built is as the variables say. -/
theorem buildEmitter_secures {node : Mug.Sys.OsPath} {fd : ℕ}
    (hfd : ⟨.sys (.openFile node), .ok fd⟩ ∈ l) :
    (onlyAsked env).Secures (buildEmitter fmt env node : Io F (Option BrioEmitter))
      (fun _ _ => True) l := by
  unfold buildEmitter
  split_ifs with hconfigured
  · refine secures_emitterVar (fun _ _ => parseHexPayload_iff) (fun on hon => ?_) fun _ _ => trivial
    refine secures_emitterVar (fun _ _ => parseHexPayload_iff) (fun off hoff => ?_) fun _ _ => trivial
    refine secures_emitterVar (fun _ _ => parseHexU8_iff) (fun unit hunit => ?_) fun _ _ => trivial
    refine secures_emitterVar (fun _ _ => parseHexU8_iff) (fun sel hsel => ?_) fun _ _ => trivial
    refine Monitor.Secures.bind ((secures_noEmitter (allOps_emitterNode (fun _ => id) (fun _ => id) _)).mono ?_)
    rintro r _ ⟨l₁, rfl, hr⟩
    refine ⟨?_, fun _ _ => trivial⟩
    rintro emitterNode rfl
    refine Monitor.secures_ask_bind ?_ (fun _ _ _ _ => Monitor.secures_pure trivial)
      fun _ _ _ _ => trivial
    rintro _ ⟨⟩
    refine ⟨hconfigured, hon, hoff, hunit, hsel, ?_⟩
    obtain ⟨hvar, hne, hvideo⟩ | ⟨hvar, rfl⟩ := emitterNode_ok hr
    · obtain ⟨resolved, name, hcanon, hchar, hrest⟩ := hvideo
      exact .inl ⟨hvar, hne, resolved, name, List.mem_append_right _ hcanon,
        List.mem_append_right _ hchar, hrest⟩
    · exact .inr ⟨hvar, fd, List.mem_append_left _ hfd⟩
  · exact Monitor.secures_pure trivial

end Opened

/-! ## The whole -/

section Whole

variable {F : Type} {fmt : Formatter F} {env : Pam.Env} {l : List (Event F)}

theorem allOps_loadModel {α : Type} {P : Op F → Prop} (hnote : ∀ text, P (.eprintln text))
    {faceModel allowMock : Bool} {path : Option Text} {load : Text → Io F α}
    (hload : ∀ p, AllOps P (load p)) (refusal : Option Text → String)
    (note : Option Text → Bool → String) (instead : α) :
    AllOps P (loadModel env faceModel path allowMock load refusal note instead) := by
  unfold loadModel
  split
  · exact hload _
  · split_ifs
    · exact allOps_throw _
    · exact (allOps_ask (hnote _) _).bind fun _ => allOps_pure _

theorem allOps_modelPath {P : Op F → Prop} (configured : Option Text) (var : String) :
    AllOps P (modelPath env configured var : Io F (Option Text)) := by
  unfold modelPath
  split
  · exact allOps_pure _
  · split
    · exact allOps_pure _
    · exact allOps_pure _
    · exact allOps_throw _

theorem noEmitter_runVerify [LinearOrder F] (faceModel : Bool) (K : Mug.Kernels F)
    (enrolled : Mug.FaceEnrollment F) (rounds : ℕ) (cfg : FaceConfig F) :
    AllOps (fun o => ¬ OpensEmitter o)
      (runVerify fmt env faceModel K enrolled rounds cfg) := by
  unfold runVerify buildMatcher buildDetector
  refine ((allOps_modelPath ..).bind fun path => allOps_loadModel (fun _ => id) (fun p => ?_) ..).bind
    fun extractor => ((allOps_modelPath ..).bind fun path =>
      allOps_loadModel (fun _ => id) (fun p => ?_) ..).bind fun detector => ?_
  · exact (allOps_ask id _).bind fun _ => allOps_pure _
  · exact (allOps_ask id _).bind fun _ => allOps_pure _
  · exact (Part.allOps_liftT (fun _ => id) _).rethrow _

theorem noEmitter_loadConfig [Field F] [LinearOrder F]
    (fromStr : Text → Except String (FaceConfig F)) :
    AllOps (fun o => ¬ OpensEmitter o) (loadConfig env fromStr) := by
  unfold loadConfig
  split
  · exact (allOps_ask id _).bind fun _ => (allOps_ask id _).bind fun _ =>
      (allOps_ensure _ _).bind fun _ => (allOps_ask id _).bind fun _ =>
        (allOps_ensure _ _).bind fun _ => allOps_ofResult _
  · exact allOps_pure _
  · exact allOps_throw _

theorem openDevice_ok {node : Mug.Sys.OsPath} {width height : ℕ} {dev : Mug.Sys.V4l2IrDevice}
    {l : List Mug.Sys.Event}
    (h : Ends (Mug.Sys.V4l2IrDevice.openDevice (F := F) node width height) (.ok dev) l) :
    ∃ fd, ⟨.openFile node, .ok fd⟩ ∈ l := by
  unfold Mug.Sys.V4l2IrDevice.openDevice at h
  obtain ⟨_, ⟨⟩, -⟩ | ⟨fd, l₁, l₂, rfl, hopen, -⟩ := ends_bind_iff.1 h
  obtain ⟨x, hx, rfl⟩ := ends_ask_iff.1 (ends_rethrow_ok_iff.1 hopen)
  obtain rfl := mapError_eq_ok.1 hx.symm
  exact ⟨fd, List.mem_cons_self⟩

/-- The camera is open when the emitter is built, and what follows opens no emitter. -/
theorem buildHardwareBackend_secures (node : Option Mug.Sys.OsPath) (rounds : ℕ) :
    (onlyAsked env).Secures (buildHardwareBackend fmt env node rounds)
      (fun _ _ => True) l := by
  have hsys : ∀ o, ¬ OpensEmitter (.sys o : Op F) := fun _ => id
  unfold buildHardwareBackend
  refine Monitor.Secures.bind ((secures_noEmitter (allOps_captureNode hsys node rounds)).mono ?_)
  rintro r l₁ -
  refine ⟨fun node _ => ?_, fun _ _ => trivial⟩
  refine Monitor.Secures.bind ((secures_noEmitter ((allOps_sys _ hsys _).rethrow _)).mono ?_)
  rintro r _ ⟨l₂, rfl, hr⟩
  refine ⟨?_, fun _ _ => trivial⟩
  rintro source rfl
  obtain ⟨l₂, hopen, rfl⟩ := Part.ends_liftT_iff.1 (ends_rethrow_ok_iff.1 hr)
  obtain ⟨fd, hfd⟩ := openDevice_ok hopen
  have hmem : ⟨.sys (.openFile node), .ok fd⟩ ∈ l₁ ++ l₂.map (sysPart F).answer :=
    List.mem_append_right _ (List.mem_map_of_mem hfd)
  refine Monitor.Secures.bind (((buildEmitter_secures hmem).mono ?_).settle)
  rintro r l₃ -
  refine ⟨fun emitter _ => ?_, fun _ _ => trivial⟩
  cases emitter with
  | ok emitter => exact Monitor.secures_pure trivial
  | error e =>
    exact (secures_noEmitter (((allOps_sys _ hsys _).rethrow _).bind fun _ =>
      allOps_throw _)).mono fun _ _ _ => trivial

/-- **No other device is written to.** Verifying a face opens the control of an emitter only if the
variables ask for one, and then as they say: with the payloads and the coordinates that they spell,
and at the camera that was opened before or at a video device. -/
theorem verifyFromEnv_onlyAsked [Field F] [LinearOrder F]
    (fromStr : Text → Except String (FaceConfig F)) (faceModel : Bool) (K : Mug.Kernels F)
    (enrolled : Mug.FaceEnrollment F) (rounds : ℕ) {r : Except (Stop Error) Unit}
    (h : Ends (verifyFromEnv fmt env fromStr faceModel K enrolled rounds) r l)
    {before rest : List (Event F)} {emitter : BrioEmitter} {x : Except String Unit}
    (hl : l = before ++ ⟨.openEmitter emitter, x⟩ :: rest) : Asked env emitter before := by
  have hsys : ∀ o, ¬ OpensEmitter (.sys o : Op F) := fun _ => id
  have hsecured : (onlyAsked env).Secures
      (verifyFromEnv fmt env fromStr faceModel K enrolled rounds) (fun _ _ => True) [] := by
    unfold verifyFromEnv
    refine Monitor.Secures.bind ((secures_noEmitter (noEmitter_loadConfig fromStr)).mono ?_)
    rintro r₁ l₁ -
    refine ⟨fun cfg _ => ?_, fun _ _ => trivial⟩
    refine Monitor.Secures.bind ((secures_noEmitter (allOps_selectBackend hsys rounds)).mono ?_)
    rintro r₂ l₂ -
    refine ⟨fun backend _ => ?_, fun _ _ => trivial⟩
    have hverify : AllOps (fun o => ¬ OpensEmitter o)
        (runVerify fmt env faceModel K enrolled rounds cfg) := noEmitter_runVerify ..
    cases backend with
    | virtual =>
      dsimp only
      split_ifs
      · exact (secures_noEmitter hverify).mono fun _ _ _ => trivial
      · exact Monitor.secures_throw trivial
    | hardware node =>
      refine Monitor.Secures.bind ((buildHardwareBackend_secures node rounds).mono ?_)
      rintro r₃ l₃ -
      refine ⟨fun hardware _ => ?_, fun _ _ => trivial⟩
      exact (secures_noEmitter (hverify.settle.bind fun outcome =>
        ((allOps_sys _ hsys _).rethrow _).bind fun _ => allOps_ofResult _)).mono
          fun _ _ _ => trivial
  have hguard := Monitor.guarded_history.1 (hsecured r l h).1 before _ rest hl
  exact hguard emitter rfl

end Whole

/-! ## A control that is opened -/

/-- Only the unit is chosen. -/
def controlEnv : Pam.Env := fun var => if var = envEmitterUnit then some (utf8 ['7']) else none

def sampleNode : Mug.Sys.OsPath := Mug.Sys.nodePath (utf8 "brio".toList)

def sampleEmitter : BrioEmitter := ⟨sampleNode, 7, brioEmitterSelector, [0x01], [0x00]⟩

/-- A camera is found, and then it is opened. -/
def sampleProbe : List Mug.Sys.Event :=
  [⟨.readDir (utf8 Mug.Sys.v4lByIdDir.toList), .ok [.ok (utf8 "brio".toList)]⟩,
    ⟨.openFile sampleNode, .ok 3⟩, ⟨.enumFmt 3 0, .ok Mug.Sys.v4l2PixFmtGrey⟩,
    ⟨.enumFmt 3 1, .error ⟨some Mug.Sys.einval, ""⟩⟩, ⟨.close 3, ()⟩]

def sampleOpen : List Mug.Sys.Event :=
  [⟨.openFile sampleNode, .ok 3⟩,
    ⟨.sFmt 3 340 340 Mug.Sys.v4l2PixFmtGrey, .ok (340, 340, Mug.Sys.v4l2PixFmtGrey)⟩,
    ⟨.reqbufs 3 4, .ok 1⟩, ⟨.querybuf 3 0, .ok (115600, 0)⟩, ⟨.mmap 3 115600 0, .ok 4096⟩,
    ⟨.qbuf 3 0, .ok ()⟩, ⟨.streamon 3, .ok ()⟩]

def sampleBefore : List (Event ℚ) := (sampleProbe ++ sampleOpen).map (sysPart ℚ).answer

/-- The control cannot be opened, and the camera is dropped. -/
def sampleRest : List (Event ℚ) :=
  [⟨.streamoff 3, .ok ()⟩, ⟨.munmap ⟨4096, 115600⟩, ()⟩, ⟨.close 3, ()⟩].map (sysPart ℚ).answer

theorem ends_sampleProbe :
    Ends (Mug.Sys.findBrioIrNode (F := ℚ) 2) (.ok sampleNode) sampleProbe := by
  have hbrio : Mug.Sys.looksLikeBrio (utf8 "brio".toList) := by
    rw [Mug.Sys.looksLikeBrio, fromUtf8Lossy_utf8]
    decide
  refine ends_bind_iff.2 (.inr ⟨_, [_], _, rfl, .op _ (.pure _), ?_⟩)
  rw [Mug.Sys.probeAll, if_pos hbrio]
  exact .op _ (.op _ (.op _ (.op _ (.pure _))))

def sampleError : Error := ["open the Brio IR emitter control " ++ Mug.Sys.display sampleNode ++
  ": IR emitter enable failed: open " ++ Mug.Sys.display sampleNode ++ ": " ++ ""]

theorem ends_sampleBuild (fmt : Formatter ℚ) :
    Ends (buildEmitter fmt controlEnv sampleNode) (.error (.failed sampleError))
      [⟨.openEmitter sampleEmitter, .error ""⟩] := by
  have hunit : emitterCoord fmt controlEnv envEmitterUnit brioEmitterUnit = pure 7 := by
    have hvar : envVar controlEnv envEmitterUnit = .ok ['7'] := by
      rw [envVar, controlEnv, if_pos rfl]
      simp only [ofUtf8_utf8]
    have hparse : parseHexU8 fmt.debug ['7'] = .ok 7 := by rfl
    rw [emitterCoord, emitterVar, hvar]
    dsimp only
    rw [hparse]
    rfl
  have hconfigured : emitterEnvConfigured controlEnv = true := by decide
  rw [buildEmitter, if_pos hconfigured, hunit]
  exact .op _ (.pure _)

theorem ends_sampleHardware (fmt : Formatter ℚ) :
    Ends (buildHardwareBackend fmt controlEnv (some sampleNode) 2) (.error (.failed sampleError))
      (sampleOpen.map (sysPart ℚ).answer ++ ⟨.openEmitter sampleEmitter, .error ""⟩ ::
        sampleRest) := by
  refine ends_bind_iff.2 (.inr ⟨_, [], _, rfl, .pure _, ?_⟩)
  refine ends_bind_iff.2 (.inr ⟨⟨⟨3, [⟨4096, 115600⟩], true⟩, 340, 340⟩, _, _, rfl,
    ends_rethrow_ok_iff.2 (Part.ends_liftT_iff.2 ⟨sampleOpen, ?_, rfl⟩), ?_⟩)
  · exact .op _ (.op _ (.op _ (.op _ (.op _ (.op _ (.op _ (.pure _)))))))
  · refine ends_settle_bind_iff.2 (.inr ⟨.error _, [_], sampleRest, rfl, ends_sampleBuild fmt, ?_⟩)
    exact .op _ (.op _ (.op _ (.pure _)))

theorem ends_sampleControl (fmt : Formatter ℚ)
    (fromStr : Text → Except String (FaceConfig ℚ)) :
    Ends (verifyFromEnv fmt controlEnv fromStr true sampleKernels sampleEnrollment 2)
      (.error (.failed sampleError))
      (sampleBefore ++ ⟨.openEmitter sampleEmitter, .error ""⟩ :: sampleRest) := by
  have hselect : Ends (selectBackend fmt controlEnv 2) (.ok (.hardware (some sampleNode)))
      (sampleProbe.map (sysPart ℚ).answer) := by
    refine ends_bind_iff.2 (.inr ⟨_, _, [], (List.append_nil _).symm, ?_, .pure _⟩)
    exact ends_rethrow_ok_iff.2 (Part.ends_liftT_iff.2 ⟨sampleProbe, ends_sampleProbe, rfl⟩)
  rw [sampleBefore, List.map_append, List.append_assoc]
  refine ends_bind_iff.2 (.inr ⟨.default, [], _, rfl, .pure _, ?_⟩)
  refine ends_bind_iff.2 (.inr ⟨_, _, _, rfl, hselect, ?_⟩)
  exact ends_bind_iff.2 (.inl ⟨_, rfl, ends_sampleHardware fmt⟩)

theorem verifyFromEnv_onlyAsked_sample : Asked controlEnv sampleEmitter sampleBefore :=
  verifyFromEnv_onlyAsked (fun _ => .error "") true sampleKernels sampleEnrollment 2
    (ends_sampleControl sampleFormatter fun _ => .error "") rfl

end Login

end Tess
