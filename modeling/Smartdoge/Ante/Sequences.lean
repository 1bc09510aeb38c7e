import Smartdoge.Ante.Eth
import Smartdoge.Evm.Nonces

/-!
# Sequences over a transaction of many messages

The ante handler advances the sequence of the sender once for every message, before any message is
executed. A contract creation that is committed then sets the sequence of its sender again, to the nonce of the
message plus one. Both agree if the creation is the last message of its sender. A creation that is followed by
another message of its sender sets the sequence back, and the nonce of the later message can be used again, unless
hooks are registered and the creation fails: its writes are dropped then.

* `ethIncrementSenderSequence_getNonce`, `ante_lastKept`: the ante handler.
* `deliver_sequenceOf`: the messages: the last creation of an account that was committed decides.
* **`sequence_advances`**: when the sequence has advanced by the number of messages.
* `sequence_rewound`: a creation and a call of one account; the nonce of the call stays unused.
-/

set_option linter.unusedSectionVars false

namespace Smartdoge.Ante

open Smartdoge.Lib
open Smartdoge.Lib.Writes
open Smartdoge.Statedb
open Smartdoge.Evm

/-- A message that creates a contract from an account. -/
def MsgEthereumTx.CreatesFrom (a : Address) (eth : MsgEthereumTx) : Prop :=
  eth.sender = some a ∧ eth.data.getTo = none

instance (a : Address) (eth : MsgEthereumTx) : Decidable (eth.CreatesFrom a) :=
  inferInstanceAs (Decidable (_ ∧ _))

/-- The messages an account sends, with their responses. -/
def answersTo (a : Address) (ps : List (MsgEthereumTx × Response)) : List (MsgEthereumTx × Response) :=
  ps.filter fun p => p.1.sender = some a

/-- A creation by an account that was committed. -/
def KeptCreation (app : App) (a : Address) (p : MsgEthereumTx × Response) : Prop :=
  p.1.CreatesFrom a ∧ app.Keeps p.2

instance (app : App) (a : Address) (p : MsgEthereumTx × Response) : Decidable (KeptCreation app a p) :=
  inferInstanceAs (Decidable (_ ∧ _))

/-- No creation of an account was committed, or its last message is one that was. -/
def KeptLastOrNever (app : App) (a : Address) (ps : List (MsgEthereumTx × Response)) : Prop :=
  (∀ p ∈ ps, ¬KeptCreation app a p) ∨ ∃ p, (answersTo a ps).getLast? = some p ∧ KeptCreation app a p

section sequences

variable [Keccak] {app : App} {ctx : Context} {a : Address}

/-- The messages of an account, with and without their responses. -/
theorem sentBy_map_fst (ps : List (MsgEthereumTx × Response)) :
    sentBy a (ps.map Prod.fst) = (answersTo a ps).map Prod.fst :=
  List.filter_map

/-! ## The ante handler -/

/-- `SetSequence` sets the sequence. -/
theorem setSequence_sequence {env : Env} {acct acct' : AuthAccount} {nonce : UInt64}
    (h : acct.setSequence env nonce = .ok acct') : acct'.sequence = nonce := by
  cases acct with
  | eth sequence codeHash =>
      obtain rfl := Except.ok.inj h
      rfl
  | module sequence =>
      simp only [AuthAccount.setSequence] at h
      split_ifs at h
      obtain rfl := Except.ok.inj h
      rfl
  | other sequence locked =>
      obtain rfl := Except.ok.inj h
      rfl

/-- One message: its nonce is the sequence of its sender, which advances by one. -/
theorem incrementSenderSequence_getNonce {eth : MsgEthereumTx} {st st' : Store} {u : PUnit}
    (h : incrementSenderSequence app eth st = .ok u st') :
    (eth.sender = some a → eth.data.getNonce = st.getNonce a ∧ st'.getNonce a = st.getNonce a + 1) ∧
      (eth.sender ≠ some a → st'.getNonce a = st.getNonce a) := by
  obtain ⟨sender, acct, acct', hsender, hacct, hnonce, hset, rfl⟩ := incrementSenderSequence_ok h
  have hbefore : st.getNonce sender = acct.sequence := by simp [Store.getNonce, hacct]
  refine ⟨?_, ?_⟩
  · intro heth
    obtain rfl := Option.some.inj (hsender.symm.trans heth)
    rw [Store.getNonce_of_sequenceOf (sequenceOf_setAuth_self st sender acct'), setSequence_sequence hset, hbefore]
    exact ⟨hnonce, rfl⟩
  · intro heth
    have hne : a ≠ sender := by
      rintro rfl
      exact heth hsender
    simp [Store.getNonce, Store.setAuth, GoMap.get_set_of_ne _ hne]

/-- An account that sent a message, or that existed, exists after the ante handler. -/
theorem incrementSenderSequence_exists {eth : MsgEthereumTx} {st st' : Store} {u : PUnit}
    (h : incrementSenderSequence app eth st = .ok u st')
    (ha : eth.sender = some a ∨ (st.sequenceOf a).isSome) : (st'.sequenceOf a).isSome := by
  obtain ⟨sender, acct, acct', hsender, -, -, -, rfl⟩ := incrementSenderSequence_ok h
  by_cases heq : a = sender
  · rw [heq, sequenceOf_setAuth_self]
    rfl
  · rw [sequenceOf_setAuth_of_ne st heq]
    refine ha.resolve_left fun heth => heq ?_
    exact Option.some.inj (heth.symm.trans hsender)

/-- **The senders have accounts** once the ante handler has accepted their messages. -/
theorem ethIncrementSenderSequence_exists {eths : List MsgEthereumTx} {st st' : Store}
    (h : ethIncrementSenderSequence app eths st = .ok () st')
    (ha : sentBy a eths ≠ [] ∨ (st.sequenceOf a).isSome) : (st'.sequenceOf a).isSome := by
  induction eths generalizing st with
  | nil =>
      obtain rfl := forM_nil_ok.mp h
      exact ha.resolve_left fun hne => hne rfl
  | cons eth eths ih =>
      obtain ⟨st₁, hone, hrest⟩ := forM_cons_ok.mp h
      refine ih hrest ?_
      by_cases heth : eth.sender = some a
      · exact Or.inr (incrementSenderSequence_exists hone (Or.inl heth))
      · rw [sentBy_cons_of_ne heth] at ha
        exact ha.imp_right fun hsome => incrementSenderSequence_exists hone (Or.inr hsome)

/-- **The ante handler advances a sequence** once for every message of the account. -/
theorem ethIncrementSenderSequence_getNonce {eths : List MsgEthereumTx} {st st' : Store}
    (h : ethIncrementSenderSequence app eths st = .ok () st') :
    st'.getNonce a = st.getNonce a + UInt64.ofNat (sentBy a eths).length := by
  induction eths generalizing st with
  | nil =>
      obtain rfl := forM_nil_ok.mp h
      simp [sentBy]
  | cons eth eths ih =>
      obtain ⟨st₁, hone, hrest⟩ := forM_cons_ok.mp h
      obtain ⟨hself, hother⟩ := incrementSenderSequence_getNonce (a := a) hone
      rw [ih hrest]
      by_cases heth : eth.sender = some a
      · rw [(hself heth).2, sentBy_cons_self heth, List.length_cons, UInt64.ofNat_add,
          UInt64.add_assoc, UInt64.add_comm 1]
        rfl
      · rw [hother heth, sentBy_cons_of_ne heth]

/-- The nonce after the last creation of an account that was committed, `n` if there is none. -/
def lastKept (app : App) (a : Address) (ps : List (MsgEthereumTx × Response)) (n : UInt64) : UInt64 :=
  ps.foldl (fun n p => if KeptCreation app a p then p.1.data.getNonce + 1 else n) n

/-- One message more at the front. -/
theorem lastKept_cons (p : MsgEthereumTx × Response) (ps : List (MsgEthereumTx × Response)) (n : UInt64) :
    lastKept app a (p :: ps) n =
      lastKept app a ps (if KeptCreation app a p then p.1.data.getNonce + 1 else n) := rfl

/-- Without such a creation the nonce stays. -/
theorem lastKept_of_never {ps : List (MsgEthereumTx × Response)} (h : ∀ p ∈ ps, ¬KeptCreation app a p)
    (n : UInt64) : lastKept app a ps n = n := by
  induction ps generalizing n with
  | nil => rfl
  | cons p ps ih =>
      rw [lastKept_cons, if_neg (h p List.mem_cons_self)]
      exact ih (fun p' h' => h p' (List.mem_cons_of_mem p h')) n

/-- A message of the account comes before its others. -/
theorem answersTo_cons_self {p : MsgEthereumTx × Response} (hp : p.1.sender = some a)
    (ps : List (MsgEthereumTx × Response)) : answersTo a (p :: ps) = p :: answersTo a ps := by
  simp [answersTo, hp]

/-- A message of another account is none of them. -/
theorem answersTo_cons_of_ne {p : MsgEthereumTx × Response} (hp : p.1.sender ≠ some a)
    (ps : List (MsgEthereumTx × Response)) : answersTo a (p :: ps) = answersTo a ps := by
  simp [answersTo, hp]

/-- As long as more messages of the account follow, the first one is not its last. -/
theorem getLast?_answersTo_cons {p : MsgEthereumTx × Response} {ps : List (MsgEthereumTx × Response)}
    (h : answersTo a ps ≠ []) : (answersTo a (p :: ps)).getLast? = (answersTo a ps).getLast? := by
  by_cases hp : p.1.sender = some a
  · rw [answersTo_cons_self hp, List.getLast?_cons, List.getLast?_eq_getLast_of_ne_nil h, Option.getD_some]
  · rw [answersTo_cons_of_ne hp]

/-- After the last creation that was committed, the nonce is the last one if and only if the account sends no more
messages. -/
theorem ante_lastKept_first {p : MsgEthereumTx × Response} {ps : List (MsgEthereumTx × Response)} {st st₁ st' : Store}
    (hone : incrementSenderSequence app p.1 st = .ok () st₁)
    (hrest : ethIncrementSenderSequence app (ps.map Prod.fst) st₁ = .ok () st')
    (hbound : (st.getNonce a).toNat + (answersTo a (p :: ps)).length < 2 ^ 64) (hkept : KeptCreation app a p)
    (hnever : ∀ p' ∈ ps, ¬KeptCreation app a p') (n : UInt64) :
    lastKept app a (p :: ps) n = st'.getNonce a ↔ answersTo a ps = [] := by
  obtain ⟨hnonce, hnext⟩ := (incrementSenderSequence_getNonce (a := a) hone).1 hkept.1.1
  rw [answersTo_cons_self hkept.1.1, List.length_cons] at hbound
  rw [lastKept_cons, if_pos hkept, lastKept_of_never hnever, ethIncrementSenderSequence_getNonce hrest,
    sentBy_map_fst, List.length_map, hnext, hnonce, ← List.length_eq_zero_iff]
  constructor
  · intro heq
    have hnat := congrArg UInt64.toNat heq
    rw [UInt64.toNat_add, UInt64.toNat_add, UInt64.toNat_add, UInt64.toNat_ofNat', UInt64.toNat_one] at hnat
    omega
  · intro hzero
    rw [hzero]
    exact (UInt64.add_zero _).symm

/-- **When the last creation has the last nonce.** The induction is on the messages: as long as a
creation that was committed is still to come, the first message does not matter. -/
theorem ante_lastKept {ps : List (MsgEthereumTx × Response)} {st st' : Store}
    (h : ethIncrementSenderSequence app (ps.map Prod.fst) st = .ok () st')
    (hbound : (st.getNonce a).toNat + (answersTo a ps).length < 2 ^ 64)
    (hsome : ∃ p ∈ ps, KeptCreation app a p) (n : UInt64) :
    lastKept app a ps n = st'.getNonce a ↔
      ∃ p, (answersTo a ps).getLast? = some p ∧ KeptCreation app a p := by
  induction ps generalizing st n with
  | nil => simp at hsome
  | cons p ps ih =>
      obtain ⟨st₁, hone, hrest⟩ := forM_cons_ok.mp h
      by_cases hlater : ∃ p' ∈ ps, KeptCreation app a p'
      · have hne : answersTo a ps ≠ [] := by
          obtain ⟨p', hmem, hkept⟩ := hlater
          exact List.ne_nil_of_mem (List.mem_filter.mpr ⟨hmem, by simpa using hkept.1.1⟩)
        obtain ⟨hself, hother⟩ := incrementSenderSequence_getNonce (a := a) hone
        have hbound₁ : (st₁.getNonce a).toNat + (answersTo a ps).length < 2 ^ 64 := by
          by_cases hp : p.1.sender = some a
          · rw [answersTo_cons_self hp, List.length_cons] at hbound
            rw [(hself hp).2, UInt64.toNat_add, UInt64.toNat_one]
            omega
          · rw [answersTo_cons_of_ne hp] at hbound
            rw [hother hp]
            exact hbound
        rw [lastKept_cons, getLast?_answersTo_cons hne]
        exact ih hrest hbound₁ hlater _
      · have hnever : ∀ p' ∈ ps, ¬KeptCreation app a p' := fun p' h' hk => hlater ⟨p', h', hk⟩
        have hkept : KeptCreation app a p := by
          obtain ⟨p', hmem, hk⟩ := hsome
          rcases List.mem_cons.mp hmem with rfl | hmem
          · exact hk
          · exact absurd hk (hnever p' hmem)
        rw [ante_lastKept_first hone hrest hbound hkept hnever]
        constructor
        · intro hnil
          rw [answersTo_cons_self hkept.1.1, hnil]
          exact ⟨p, rfl, hkept⟩
        · rintro ⟨p', hlast, hk⟩
          by_contra hne
          rw [getLast?_answersTo_cons hne] at hlast
          exact hnever p' (List.mem_of_mem_filter (List.mem_of_getLast? hlast)) hk

/-! ## The messages -/

variable {eoa : Address → Prop}

/-- **The last creation that was committed decides.** -/
theorem deliver_sequenceOf (hvm : app.SparesNonces ctx eoa) (ha : eoa a)
    {eths : List MsgEthereumTx} (hsigned : ∀ eth ∈ eths, eth.sender = app.geth.sender ctx eth.data)
    {st st' : Store} {n : UInt64} (hn : st.sequenceOf a = some n) {ress : List Response}
    (h : app.deliver ctx (eths.map MsgEthereumTx.data) st = .ok ress st') :
    eths.length = ress.length ∧ st'.sequenceOf a = some (lastKept app a (eths.zip ress) n) := by
  induction eths generalizing st ress n with
  | nil =>
      obtain ⟨rfl, rfl⟩ := mapM_nil_ok.mp h
      exact ⟨rfl, hn⟩
  | cons eth eths ih =>
      obtain ⟨res, st₁, ress', hone, hrest, rfl⟩ := mapM_cons_ok.mp h
      have hone' := App.applyTransaction_sequenceOf hvm ha hn hone
      rw [← hsigned eth List.mem_cons_self] at hone'
      obtain ⟨hlength, hlast⟩ := ih (fun eth' h' => hsigned eth' (List.mem_cons_of_mem eth h')) hone' hrest
      exact ⟨by rw [List.length_cons, List.length_cons, hlength], hlast⟩

/-- The sequence of an account has advanced by the number of its messages. -/
def Advanced (a : Address) (eths : List MsgEthereumTx) (st st' : Store) : Prop :=
  (st'.getNonce a).toNat = (st.getNonce a).toNat + (sentBy a eths).length

/-- The sequence has advanced exactly if the messages left what the ante handler wrote, which did not overflow. -/
theorem advanced_iff {eths : List MsgEthereumTx} {st st₁ st' : Store}
    (h : ethIncrementSenderSequence app eths st = .ok () st₁) :
    Advanced a eths st st' ↔ st'.getNonce a = st₁.getNonce a ∧
      (st.getNonce a).toNat + (sentBy a eths).length < 2 ^ 64 := by
  have hante := congrArg UInt64.toNat (ethIncrementSenderSequence_getNonce (a := a) h)
  rw [UInt64.toNat_add, UInt64.toNat_ofNat', Nat.add_mod_mod] at hante
  have hlt := (st'.getNonce a).toNat_lt
  unfold Advanced
  rw [← UInt64.toNat_inj, hante]
  constructor
  · intro hadvanced
    rw [← hadvanced]
    exact ⟨(Nat.mod_eq_of_lt hlt).symm, hlt⟩
  · rintro ⟨heq, hbound⟩
    rw [heq, Nat.mod_eq_of_lt hbound]

/-- **When the sequence of an account advances by the number of its messages.** For every list of messages whose
nonces the ante handler accepts and that are all executed, and every account that sends one of them: its sequence
has advanced by one for every message if and only if no contract creation of the account was committed, or its last
message is one that was, and the sequence does not overflow. A creation is committed without hooks, and with hooks
if it does not fail. -/
theorem sequence_advances (hvm : app.SparesNonces ctx eoa) (ha : eoa a) {eths : List MsgEthereumTx}
    (hsends : sentBy a eths ≠ []) (hsigned : ∀ eth ∈ eths, eth.sender = app.geth.sender ctx eth.data)
    {st st₁ st₂ : Store} (hante : ethIncrementSenderSequence app eths st = .ok () st₁) {ress : List Response}
    (hdeliver : app.deliver ctx (eths.map MsgEthereumTx.data) st₁ = .ok ress st₂) :
    Advanced a eths st st₂ ↔ KeptLastOrNever app a (eths.zip ress) ∧
      (st.getNonce a).toNat + (sentBy a eths).length < 2 ^ 64 := by
  obtain ⟨n, hn⟩ := Option.isSome_iff_exists.mp (ethIncrementSenderSequence_exists hante (Or.inl hsends))
  obtain ⟨hlength, hlast⟩ := deliver_sequenceOf hvm ha hsigned hn hdeliver
  have hfst : (eths.zip ress).map Prod.fst = eths := List.map_fst_zip (by omega)
  rw [advanced_iff hante, and_congr_left_iff]
  intro hbound
  rw [Store.getNonce_of_sequenceOf hlast]
  unfold KeptLastOrNever
  by_cases hsome : ∃ p ∈ eths.zip ress, KeptCreation app a p
  · rw [← hfst] at hante hbound
    rw [sentBy_map_fst, List.length_map] at hbound
    rw [ante_lastKept hante hbound hsome]
    refine ⟨Or.inr, fun hor => hor.resolve_left fun hnever => ?_⟩
    obtain ⟨p, hmem, hkept⟩ := hsome
    exact hnever p hmem hkept
  · have hnever : ∀ p ∈ eths.zip ress, ¬KeptCreation app a p := fun p h hk => hsome ⟨p, h, hk⟩
    refine iff_of_true ?_ (Or.inl hnever)
    rw [lastKept_of_never hnever, Store.getNonce_of_sequenceOf hn]

end sequences

/-! ## Concrete runs -/

/-- The creation of a contract at `c` with a code of one byte. -/
def deployingCreate (c : Address) (msg : Message) (gas : UInt64) (_ : StateDB Store) : VmOutcome where
  ops := [.getBalance msg.sender, .getNonce msg.sender, .setNonce msg.sender (msg.nonce + 1),
    .addAddressToAccessList c, .getNonce c, .getCodeHash c, .snapshot, .createAccount c, .setNonce c 1,
    .subBalance msg.sender msg.value, .addBalance c msg.value, .setCode c (some [0])]
  ret := []
  leftoverGas := gas
  vmErr := none

/-- A creation that changes no nonce but that of its caller and of the contract. -/
theorem deployingCreate_spares [Keccak] {a c : Address} (hne : c ≠ a) (ctx : Context) :
    (sampleApp a (deployingCreate c) transferCall).SparesNonces ctx (· = a) := by
  refine ⟨?_, ?_, ?_⟩
  · rintro msg gas s _ rfl - op hop
    have hops : op ∈ (transferCall msg gas s).ops := hop
    unfold transferCall at hops
    cases hto : msg.toAddr with
    | none => simp [hto] at hops
    | some dst =>
        simp only [hto, List.mem_cons, List.not_mem_nil, or_false] at hops
        rcases hops with rfl | rfl | rfl | rfl | rfl | rfl <;> rfl
  · rintro msg gas s _ rfl - op hop
    have hops : op ∈ (deployingCreate c msg gas s).ops := hop
    simp only [deployingCreate, List.mem_cons, List.not_mem_nil, or_false] at hops
    refine ⟨?_, fun hsender => ?_⟩
    · rintro rfl
      simp at hops
    · rcases hops with rfl | rfl | rfl | rfl | rfl | rfl | rfl | rfl | rfl | rfl | rfl | rfl <;>
        simp [Op.keepsNonce, hne, Ne.symm hsender]
  · intro hooks h
    exact absurd h (by simp [sampleApp])

/-- A call followed by a creation. -/
theorem sequence_advances_creation :
    letI := sampleKeccak
    let a : Address := .ofNat 20 1
    let c : Address := .ofNat 20 2
    let app := sampleApp a (deployingCreate c) transferCall
    let eths : List MsgEthereumTx :=
      [⟨legacyTx 3 (some c), some a, ""⟩, ⟨legacyTx 4 none, some a, ""⟩]
    ∃ st₁ ress st₂, ethIncrementSenderSequence app eths (beforeBatch a) = .ok () st₁ ∧
      app.deliver sampleContext (eths.map MsgEthereumTx.data) st₁ = .ok ress st₂ ∧
      KeptLastOrNever app a (eths.zip ress) ∧ Advanced a eths (beforeBatch a) st₂ ∧ st₂.getNonce a = 5 := by
  let _ := sampleKeccak
  intro a c app eths
  obtain ⟨⟨⟩, st₁, hante, hout⟩ := exists_of_endsWith (by decide +kernel :
    endsWith (ethIncrementSenderSequence app eths (beforeBatch a)) (fun _ st₁ =>
      endsWith (app.deliver sampleContext (eths.map MsgEthereumTx.data) st₁)
        (fun _ st₂ => decide (st₂.getNonce a = 5))) = true)
  obtain ⟨ress, st₂, hdeliver, hnonce⟩ := exists_of_endsWith hout
  have hsigned : ∀ eth ∈ eths, eth.sender = app.geth.sender sampleContext eth.data := by
    intro eth heth
    simp only [eths, List.mem_cons, List.not_mem_nil, or_false] at heth
    rcases heth with rfl | rfl <;> rfl
  have hspares := deployingCreate_spares (a := a) (c := c) (by decide) sampleContext
  have hadvances := sequence_advances hspares rfl (by decide) hsigned hante hdeliver
  have hadvanced : Advanced a eths (beforeBatch a) st₂ := by
    unfold Advanced
    rw [of_decide_eq_true hnonce]
    decide +kernel
  exact ⟨st₁, ress, st₂, hante, hdeliver, (hadvances.mp hadvanced).1, hadvanced, of_decide_eq_true hnonce⟩

/-- A creation followed by a call: the sequence ends at 4 after two messages from 3, and the call is
accepted once more. -/
theorem sequence_rewound :
    letI := sampleKeccak
    let a : Address := .ofNat 20 1
    let c : Address := .ofNat 20 2
    let app := sampleApp a (deployingCreate c) transferCall
    let call : MsgEthereumTx := ⟨legacyTx 4 (some c), some a, ""⟩
    let eths : List MsgEthereumTx := [⟨legacyTx 3 none, some a, ""⟩, call]
    app.SparesNonces sampleContext (· = a) ∧
    ∃ st₁ ress st₂, ethIncrementSenderSequence app eths (beforeBatch a) = .ok () st₁ ∧
      app.deliver sampleContext (eths.map MsgEthereumTx.data) st₁ = .ok ress st₂ ∧
      st₂.getNonce a = 4 ∧ ¬Advanced a eths (beforeBatch a) st₂ ∧
      ∃ st₃, ethIncrementSenderSequence app [call] st₂ = .ok () st₃ := by
  let _ := sampleKeccak
  intro a c app call eths
  refine ⟨deployingCreate_spares (by decide) sampleContext, ?_⟩
  obtain ⟨⟨⟩, st₁, hante, hout⟩ := exists_of_endsWith (by decide +kernel :
    endsWith (ethIncrementSenderSequence app eths (beforeBatch a)) (fun _ st₁ =>
      endsWith (app.deliver sampleContext (eths.map MsgEthereumTx.data) st₁)
        (fun _ st₂ => decide (st₂.getNonce a = 4) &&
          endsWith (ethIncrementSenderSequence app [call] st₂) (fun _ _ => true))) = true)
  obtain ⟨ress, st₂, hdeliver, hout⟩ := exists_of_endsWith hout
  obtain ⟨hnonce, hagain⟩ := Bool.and_eq_true_iff.mp hout
  obtain ⟨⟨⟩, st₃, hreplay, -⟩ := exists_of_endsWith hagain
  have hfour := of_decide_eq_true hnonce
  refine ⟨st₁, ress, st₂, hante, hdeliver, hfour, ?_, st₃, hreplay⟩
  unfold Advanced
  rw [hfour]
  decide +kernel

end Smartdoge.Ante
