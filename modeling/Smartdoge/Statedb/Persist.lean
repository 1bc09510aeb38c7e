import Smartdoge.Statedb.Commit

/-!
# Commit persists the view

Over a lawful keeper, `Commit` writes exactly what the getters reported: a fresh `StateDB` over
the committed store reports the same accounts, codes and storage, and nothing of the suicided
accounts (`commit_persists`).

The commit loop settles one address at a time. `Settled` says what a store holds for one live
object after it was committed; `commit_settles` is one iteration, `commitAll_settles` the loop.
Accounts and storage are separate per address, so an iteration disturbs no other address. Codes
are not: they are shared by hash, and the loop keeps the code of a hash only because equal hashes
come from equal codes (`CollisionFree`), and because no deletion takes it along (`KeepsCodes`).

`KeepsCodes` is about the code hash that the *store* holds for a suicided account, since that is
the one `DeleteAccount` removes. The hash the working state reports is not enough
(`commit_loses_shared_code`): an account whose code was replaced before it was suicided still takes
its old code along.
-/

set_option linter.unusedSectionVars false

namespace Smartdoge.Statedb

open Smartdoge.Lib
open Smartdoge.Lib.Writes

section persist

variable [Keccak] {σ : Type}

/-! ## One object -/

/-- The code a commit of this object stores under a hash, if it stores one there. -/
def StateObject.storesCode (o : StateObject) (codeHash : Hash) : Option Bytes :=
  if o.suicided = false ∧ o.dirtyCode = true ∧ o.account.codeHash = codeHash then o.code else none

/-- The store holds, at one address, what the live object there reports. -/
structure Settled (k : Keeper σ) (ctx : σ) (a : Address) (o : StateObject) (c : σ) : Prop where
  account : k.getAccount c a = if o.suicided then none else some o.account
  storage : ∀ key, k.getState c a key =
    if o.suicided then FixedBytes.zero 32 else (o.view k ctx).storage key

variable {k : Keeper σ} (hk : k.Lawful) {ctx : σ}

include hk

/-- Writing dirty slots one by one: the slots done hold their dirty value, the others are as in
the store the object was loaded from. -/
theorem commitSlots_storage {a : Address} {o : StateObject} (ho : o.Coherent k ctx a)
    (keys done : List Hash) (hkeys : ∀ key ∈ keys, key ∈ o.dirtyStorage.keys) {c : σ}
    (haccount : (k.getAccount c a).isSome)
    (hc : ∀ j, k.getState c a j =
      if j ∈ done then (o.dirtyStorage.get j).getD (FixedBytes.zero 32) else k.getState ctx a j) :
    ∀ j, k.getState (keys.foldl (o.commitSlot k) c) a j =
      if j ∈ done ∨ j ∈ keys then (o.dirtyStorage.get j).getD (FixedBytes.zero 32)
      else k.getState ctx a j := by
  induction keys generalizing c done with
  | nil =>
      intro j
      simp [hc j]
  | cons key keys ih =>
      intro j
      have hdone : ∀ j, (j ∈ done ∨ j ∈ key :: keys) ↔ (j ∈ key :: done ∨ j ∈ keys) := by
        intro j
        simp only [List.mem_cons]
        tauto
      simp only [List.foldl_cons, hdone j]
      have horigin : key ∈ o.originStorage.keys := ho.dirty key (hkeys key List.mem_cons_self)
      refine ih (key :: done) (fun j hj => hkeys j (List.mem_cons_of_mem key hj)) ?_ ?_ j
      · unfold StateObject.commitSlot
        simp only
        split_ifs
        · exact haccount
        · rw [hk.getAccount_setState]
          exact haccount
      · intro i
        unfold StateObject.commitSlot
        simp only [List.mem_cons]
        by_cases hi : i = key
        · subst hi
          simp only [true_or, if_true]
          split_ifs with heq
          · -- A skipped write: the cached origin value is the store's value already.
            rw [hc i]
            split_ifs
            · rfl
            · rw [GoMap.mem_keys, Option.isSome_iff_exists] at horigin
              obtain ⟨value, hvalue⟩ := horigin
              rw [heq, hvalue, Option.getD_some, ho.origin i value hvalue]
          · rw [ho.address, hk.getState_setState haccount]
            simp
        · simp only [hi, false_or]
          split_ifs with heq hd hd
          · rw [hc i, if_pos hd]
          · rw [hc i, if_neg hd]
          · rw [ho.address, hk.getState_setState haccount, if_neg (by tauto), hc i, if_pos hd]
          · rw [ho.address, hk.getState_setState haccount, if_neg (by tauto), hc i, if_neg hd]

/-- What writing the storage of one object does. -/
theorem commitStorage_spec {a : Address} {o : StateObject} (ho : o.Coherent k ctx a) {c : σ}
    (haccount : (k.getAccount c a).isSome) (hc : ∀ j, k.getState c a j = k.getState ctx a j) :
    k.getAccount (o.commitStorage k c) = k.getAccount c ∧
      k.getCode (o.commitStorage k c) = k.getCode c ∧
      (∀ b, b ≠ a → ∀ j, k.getState (o.commitStorage k c) b j = k.getState c b j) ∧
      ∀ j, k.getState (o.commitStorage k c) a j = (o.view k ctx).storage j := by
  have hframe : ∀ (keys : List Hash) (c : σ), (k.getAccount c a).isSome →
      k.getAccount (keys.foldl (o.commitSlot k) c) = k.getAccount c ∧
      k.getCode (keys.foldl (o.commitSlot k) c) = k.getCode c ∧
      ∀ b, b ≠ a → ∀ j, k.getState (keys.foldl (o.commitSlot k) c) b j = k.getState c b j := by
    intro keys
    induction keys with
    | nil =>
        intro c _
        exact ⟨rfl, rfl, fun _ _ _ => rfl⟩
    | cons key keys ih =>
        intro c hacc
        have hslot : k.getAccount (o.commitSlot k c key) = k.getAccount c ∧
            k.getCode (o.commitSlot k c key) = k.getCode c ∧
            ∀ b, b ≠ a → ∀ j, k.getState (o.commitSlot k c key) b j = k.getState c b j := by
          unfold StateObject.commitSlot
          simp only
          split_ifs
          · exact ⟨rfl, rfl, fun _ _ _ => rfl⟩
          · refine ⟨hk.getAccount_setState _ _ _ _, hk.getCode_setState _ _ _ _, ?_⟩
            intro b hb j
            rw [ho.address, hk.getState_setState hacc, if_neg (fun h => hb h.1)]
        obtain ⟨h₁, h₂, h₃⟩ := ih (o.commitSlot k c key) (by rw [hslot.1]; exact hacc)
        refine ⟨h₁.trans hslot.1, h₂.trans hslot.2.1, ?_⟩
        intro b hb j
        rw [List.foldl_cons, h₃ b hb j, hslot.2.2 b hb j]
  obtain ⟨h₁, h₂, h₃⟩ := hframe o.dirtyStorage.sortedKeys c haccount
  refine ⟨h₁, h₂, h₃, ?_⟩
  intro j
  have hmem : ∀ j, j ∈ o.dirtyStorage.sortedKeys ↔ (o.dirtyStorage.get j).isSome :=
    fun _ => GoMap.mem_sortedKeys FixedBytes.le
  have hkeys : ∀ key ∈ o.dirtyStorage.sortedKeys, key ∈ o.dirtyStorage.keys := by
    intro key hkey
    rw [GoMap.mem_keys, ← hmem]
    exact hkey
  rw [StateObject.commitStorage, commitSlots_storage hk ho _ [] hkeys haccount (by simpa using hc)]
  have hview : (o.view k ctx).storage j =
      (o.dirtyStorage.get j).getD (k.getState ctx a j) := by
    simp only [StateObject.view, StateObject.getState_fst]
    cases hd : o.dirtyStorage.get j with
    | some value => rfl
    | none =>
        simp only [Option.getD_none]
        cases horg : o.originStorage.get j with
        | some value => exact ho.origin j value horg
        | none => rw [Option.getD_none, ho.address]
  rw [hview]
  simp only [List.not_mem_nil, false_or, hmem]
  cases o.dirtyStorage.get j with
  | some value => rfl
  | none => rfl

omit hk in
/-- Whether committing an object writes a code under a hash. -/
theorem commitCode_getCode (hk : k.Lawful) (o : StateObject) (hs : o.suicided = false) (c : σ)
    (h : Hash) : (k.getCode (o.commitCode k c) h).getD [] =
      ((o.storesCode h).getD ((k.getCode c h).getD [])) := by
  unfold StateObject.commitCode StateObject.storesCode
  cases hcode : o.code with
  | none => simp
  | some code =>
      by_cases hd : o.dirtyCode = true
      · simp only [hd, if_true, hk.getCode_setCode, hs, true_and]
        by_cases hh : h = o.account.codeHash
        · simp [hh]
        · simp [hh, Ne.symm hh]
      · simp [hd]

/-- **One iteration of the commit loop**: it returns, settles its own address, leaves the accounts
and the storage of the others alone, and stores at most its own code, losing at most the code under
the hash stored for a deleted account. -/
theorem commit_settles {a : Address} {o : StateObject} (ho : o.Coherent k ctx a) {c : σ}
    (hc : ∀ j, k.getState c a j = k.getState ctx a j) :
    ∃ c', o.commit k c = .ok () c' ∧ Settled k ctx a o c' ∧
      (∀ b, b ≠ a → k.getAccount c' b = k.getAccount c b ∧ k.getState c' b = k.getState c b) ∧
      ∀ h, (o.suicided = true → ∀ account, k.getAccount c a = some account → account.codeHash ≠ h) →
        (k.getCode c' h).getD [] = (o.storesCode h).getD ((k.getCode c h).getD []) := by
  by_cases hs : o.suicided = true
  · obtain ⟨c', hdel⟩ := hk.deleteAccount_ok a c
    refine ⟨c', ?_, ⟨?_, ?_⟩, ?_, ?_⟩
    · rw [StateObject.commit_ok, if_pos hs, ho.address]
      exact hdel
    · simp [hk.getAccount_deleteAccount hdel, hs]
    · intro key
      simp [hk.getState_deleteAccount hdel, hs]
    · intro b hb
      refine ⟨by simp [hk.getAccount_deleteAccount hdel, hb], ?_⟩
      funext key
      simp [hk.getState_deleteAccount hdel, hb]
    · intro h hne
      rw [hk.getCode_deleteAccount hdel h (hne hs)]
      simp [StateObject.storesCode, hs]
  · rw [Bool.not_eq_true] at hs
    have hcodeAccount : k.getAccount (o.commitCode k c) = k.getAccount c := by
      unfold StateObject.commitCode
      cases o.code with
      | none => rfl
      | some code =>
          simp only
          split_ifs
          · exact hk.getAccount_setCode _ _ _
          · rfl
    have hcodeState : k.getState (o.commitCode k c) = k.getState c := by
      unfold StateObject.commitCode
      cases o.code with
      | none => rfl
      | some code =>
          simp only
          split_ifs
          · exact hk.getState_setCode _ _ _
          · rfl
    obtain ⟨c₁, hset⟩ := hk.setAccount_ok a o.account (o.commitCode k c)
    have hacc₁ : ∀ b, k.getAccount c₁ b = if b = a then some o.account else k.getAccount c b := by
      intro b
      rw [hk.getAccount_setAccount hset, hcodeAccount]
    have hstate₁ : k.getState c₁ = k.getState c := by
      rw [hk.getState_setAccount hset, hcodeState]
    have hsome : (k.getAccount c₁ a).isSome := by simp [hacc₁]
    obtain ⟨h₁, h₂, h₃, h₄⟩ := commitStorage_spec hk ho hsome
      (fun j => by rw [hstate₁]; exact hc j)
    refine ⟨o.commitStorage k c₁, ?_, ⟨?_, ?_⟩, ?_, ?_⟩
    · rw [StateObject.commit_ok, hs, ho.address]
      exact ⟨c₁, hset, rfl⟩
    · rw [h₁, hacc₁, hs]
      simp
    · intro key
      rw [h₄ key, hs]
      rfl
    · intro b hb
      refine ⟨by rw [h₁, hacc₁, if_neg hb], ?_⟩
      funext j
      rw [h₃ b hb j, hstate₁]
    · intro h _
      rw [h₂, hk.getCode_setAccount hset]
      exact commitCode_getCode hk o hs c h

/-! ## The loop -/

omit hk in
/-- **The commit loop** returns, settles every address it visits, leaves the accounts and the storage
of the others alone, and ends with `code` under `h` if all it stores there is `code`, it deletes
nothing there, and either the code was there before or it is stored on the way. -/
theorem commitAll_settles {s : StateDB σ} (hk : s.keeper.Lawful) (hs : s.Coherent)
    {addrs : List Address} (hnodup : addrs.Nodup)
    (hlive : ∀ a ∈ addrs, ∃ o, s.stateObjects.get a = some o) {c : σ}
    (hc : ∀ a ∈ addrs, s.keeper.getAccount c a = s.keeper.getAccount s.ctx a ∧
      s.keeper.getState c a = s.keeper.getState s.ctx a) :
    ∃ c', s.commitAll addrs c = .ok () c' ∧
      (∀ a ∈ addrs, ∀ o, s.stateObjects.get a = some o → Settled s.keeper s.ctx a o c') ∧
      (∀ a, a ∉ addrs → s.keeper.getAccount c' a = s.keeper.getAccount c a ∧
        s.keeper.getState c' a = s.keeper.getState c a) ∧
      ∀ h code,
        (∀ a ∈ addrs, ∀ o, s.stateObjects.get a = some o → ∀ x, o.storesCode h = some x → x = code) →
        (∀ a ∈ addrs, ∀ o, s.stateObjects.get a = some o → o.suicided = true →
          ∀ account, s.keeper.getAccount s.ctx a = some account → account.codeHash ≠ h) →
        ((s.keeper.getCode c h).getD [] = code ∨
          ∃ a ∈ addrs, ∃ o, s.stateObjects.get a = some o ∧ (o.storesCode h).isSome) →
        (s.keeper.getCode c' h).getD [] = code := by
  induction addrs generalizing c with
  | nil =>
      refine ⟨c, forM_nil_ok.mpr rfl, by simp, fun _ _ => ⟨rfl, rfl⟩, ?_⟩
      intro h code _ _ hhave
      simpa using hhave
  | cons a addrs ih =>
      obtain ⟨ha, hnodup'⟩ := List.nodup_cons.mp hnodup
      obtain ⟨o, ho⟩ := hlive a List.mem_cons_self
      obtain ⟨hca, hcs⟩ := hc a List.mem_cons_self
      obtain ⟨c₁, hrun₁, hsettled, hother, hcode₁⟩ :=
        commit_settles hk (hs a o ho) (fun j => congrFun hcs j)
      have hne : ∀ b ∈ addrs, b ≠ a := by
        rintro b hb rfl
        exact ha hb
      have hc₁ : ∀ b ∈ addrs, s.keeper.getAccount c₁ b = s.keeper.getAccount s.ctx b ∧
          s.keeper.getState c₁ b = s.keeper.getState s.ctx b := by
        intro b hb
        obtain ⟨h₁, h₂⟩ := hother b (hne b hb)
        obtain ⟨h₃, h₄⟩ := hc b (List.mem_cons_of_mem a hb)
        exact ⟨h₁.trans h₃, h₂.trans h₄⟩
      obtain ⟨c', hrun, hset, hrest, hcode⟩ :=
        ih hnodup' (fun b hb => hlive b (List.mem_cons_of_mem a hb)) hc₁
      refine ⟨c', StateDB.commitAll_cons_ok.mpr ⟨o, c₁, ho, hrun₁, hrun⟩, ?_, ?_, ?_⟩
      · intro b hb o' ho'
        rcases List.mem_cons.mp hb with rfl | hb
        · obtain rfl := Option.some.inj (ho.symm.trans ho')
          obtain ⟨h₁, h₂⟩ := hrest b ha
          exact ⟨h₁.trans hsettled.account, fun key => (congrFun h₂ key).trans (hsettled.storage key)⟩
        · exact hset b hb o' ho'
      · intro b hb
        obtain ⟨hba, hb'⟩ := not_or.mp (fun h => hb (List.mem_cons.mpr h))
        obtain ⟨h₁, h₂⟩ := hrest b hb'
        obtain ⟨h₃, h₄⟩ := hother b hba
        exact ⟨h₁.trans h₃, h₂.trans h₄⟩
      · intro h code hsame hkeep hhave
        have hkeep₁ : o.suicided = true →
            ∀ account, s.keeper.getAccount c a = some account → account.codeHash ≠ h := by
          intro hsu account hacc
          rw [hca] at hacc
          exact hkeep a List.mem_cons_self o ho hsu account hacc
        have hread := hcode₁ h hkeep₁
        apply hcode h code (fun b hb => hsame b (List.mem_cons_of_mem a hb))
          (fun b hb => hkeep b (List.mem_cons_of_mem a hb))
        rw [hread]
        cases hst : o.storesCode h with
        | some x =>
            left
            exact hsame a List.mem_cons_self o ho x hst
        | none =>
            rcases hhave with hold | ⟨b, hb, o', ho', hsome⟩
            · left
              exact hold
            · rcases List.mem_cons.mp hb with rfl | hb
              · obtain rfl := Option.some.inj (ho.symm.trans ho')
                rw [hst] at hsome
                exact absurd hsome (by simp)
              · exact Or.inr ⟨b, hb, o', ho', hsome⟩

/-! ## The whole view -/

/-- Keccak-256 does not collide on these codes. -/
def CollisionFree (codes : Set Bytes) : Prop :=
  ∀ x ∈ codes, ∀ y ∈ codes, keccak256 x = keccak256 y → x = y

/-- The codes of the accounts of a state, and the empty code. -/
def StateDB.codes (s : StateDB σ) : Set Bytes :=
  { code | code = [] ∨ ∃ a, code = ((s.getCode a).1).getD [] }

/-- No surviving account has the code hash that the store holds for a suicided one. -/
def KeepsCodes (s : StateDB σ) : Prop :=
  ∀ a b account, (s.hasSuicided a).1 = true → s.keeper.getAccount s.ctx a = some account →
    account.codeHash ≠ emptyCodeHash → (s.exist b).1 = true → (s.hasSuicided b).1 = false →
    (s.getCodeHash b).1 ≠ account.codeHash

/-- What `t` reports at an address is what `s` reported, or nothing if `s` had suicided it; the
codes are compared up to the difference between `nil` and empty. -/
def Persists (s t : StateDB σ) (a : Address) : Prop :=
  if (s.hasSuicided a).1 then (t.exist a).1 = false ∧ ∀ key, (t.getState a key).1 = FixedBytes.zero 32
  else
    (t.exist a).1 = (s.exist a).1 ∧ (t.getNonce a).1 = (s.getNonce a).1 ∧
    (t.getBalance a).1 = (s.getBalance a).1 ∧ (t.getCodeHash a).1 = (s.getCodeHash a).1 ∧
    ((t.getCode a).1).getD [] = ((s.getCode a).1).getD [] ∧
    ∀ key, (t.getState a key).1 = (s.getState a key).1

omit hk

/-- In a state over a store that has its codes, every account has the code its hash says. -/
theorem Wf.keccak_code {s : StateDB σ} (h : Wf s) (hstored : CodeStored s.keeper s.ctx) {a : Address}
    {o : ObjectView} (ho : s.view.objects a = some o) :
    keccak256 (o.code.getD []) = o.account.codeHash := by
  have hobj : ∀ obj : StateObject, obj.Coherent s.keeper s.ctx a →
      keccak256 ((obj.view s.keeper s.ctx).code.getD []) = obj.account.codeHash := by
    intro obj hco
    have := hco.code hstored
    rwa [← StateObject.getCode_fst] at this
  cases hget : s.stateObjects.get a with
  | some obj =>
      rw [StateDB.view_objects_of_get hget] at ho
      obtain rfl := Option.some.inj ho
      exact hobj obj (h.ready.coherent a obj hget)
  | none =>
      rw [StateDB.view_objects_of_get_none hget, baseView, Option.map_eq_some_iff] at ho
      obtain ⟨account, hacc, rfl⟩ := ho
      exact hobj _ (StateObject.newObject_coherent _ _ (codeMatches_of_getAccount _ _ hacc))

/-- The code of every object is among the codes of the state. -/
theorem StateDB.code_mem_codes {s : StateDB σ} (hs : s.Coherent) {a : Address} {o : ObjectView}
    (ho : s.view.objects a = some o) : o.code.getD [] ∈ s.codes := by
  right
  exact ⟨a, by rw [getCode_fst hs, ho]; rfl⟩

/-- Either the store has the code of a surviving account already, or a commit stores it. -/
theorem Wf.code_at_hand {s : StateDB σ} (h : Wf s) (hreset : ResetsDirty s) {a : Address}
    {o : ObjectView} (ho : s.view.objects a = some o) (hsu : o.suicided = false)
    (hne : o.account.codeHash ≠ emptyCodeHash) :
    (s.keeper.getCode s.ctx o.account.codeHash).getD [] = o.code.getD [] ∨
      ∃ b ∈ s.journal.sortedDirties, ∃ obj, s.stateObjects.get b = some obj ∧
        (obj.storesCode o.account.codeHash).isSome := by
  by_cases hdirty : a ∈ s.journal.sortedDirties
  · obtain ⟨obj, hget⟩ := h.live_of_dirty hdirty
    rw [StateDB.view_objects_of_get hget] at ho
    obtain rfl := Option.some.inj ho
    have hcode : (obj.view s.keeper s.ctx).code =
        codeView s.keeper s.ctx obj.code obj.account.codeHash := obj.getCode_fst
    cases hc : obj.code with
    | none =>
        left
        have hhash : obj.account.codeHash ≠ emptyCodeHash := hne
        rw [hcode, hc, codeView, if_neg hhash]
        rfl
    | some code =>
        rw [hc] at hcode
        by_cases hd : obj.dirtyCode = true
        · right
          have hsu' : obj.suicided = false := hsu
          refine ⟨a, hdirty, obj, hget, ?_⟩
          simp [StateObject.storesCode, hsu', hd, hc, StateObject.view]
        · left
          have hclean := (h.ready.coherent a obj hget).clean (by simpa using hd) code hc
          rw [hcode]
          exact congrArg (Option.getD · []) hclean
  · left
    rw [h.view_of_not_dirty hreset hdirty, baseView, Option.map_eq_some_iff] at ho
    obtain ⟨account, hacc, rfl⟩ := ho
    have hhash : account.codeHash ≠ emptyCodeHash := hne
    have hcode : ((newObject a account).view s.keeper s.ctx).code =
        codeView s.keeper s.ctx none account.codeHash := StateObject.getCode_fst _
    rw [hcode, codeView, if_neg hhash]
    rfl

/-- The account at an address of a store is the account `o` of a working state. -/
structure StoredAs (k : Keeper σ) (c : σ) (a : Address) (o : ObjectView) : Prop where
  account : k.getAccount c a = some o.account
  storage : ∀ key, k.getState c a key = o.storage key
  code : (codeView k c none o.account.codeHash).getD [] = o.code.getD []

/-- **Commit, on views.** A commit over a lawful keeper returns; afterwards the store has no account
where the state had none or a suicided one, and the state's account everywhere else. -/
theorem commit_view {s : StateDB σ} (h : Wf s) (hk : s.keeper.Lawful)
    (hstored : CodeStored s.keeper s.ctx) (hcoll : CollisionFree s.codes) (hreset : ResetsDirty s)
    (hkeeps : KeepsCodes s) :
    ∃ c, s.commit s.ctx = .ok () c ∧ ∀ a,
      (∀ o, s.view.objects a = some o → o.suicided = false → StoredAs s.keeper c a o) ∧
      ((∀ o, s.view.objects a = some o → o.suicided = true) → s.keeper.getAccount c a = none) := by
  have hco := h.ready.coherent
  obtain ⟨c, hrun, hset, hother, hcode⟩ := commitAll_settles hk hco
    (nodup_sortedDirties s.journal) (fun a ha => h.live_of_dirty ha) (c := s.ctx)
    (fun _ _ => ⟨rfl, rfl⟩)
  -- The code of a surviving account is in the store.
  have hcodes : ∀ a o, s.view.objects a = some o → o.suicided = false →
      (codeView s.keeper c none o.account.codeHash).getD [] = o.code.getD [] := by
    intro a o ho hsu
    have hhash := h.keccak_code hstored ho
    have hmem := StateDB.code_mem_codes hco ho
    unfold codeView
    split_ifs with hempty
    · rw [hempty] at hhash
      exact (hcoll _ hmem [] (Or.inl rfl) hhash).symm
    · apply hcode
      · intro b hb obj hget x hx
        simp only [StateObject.storesCode] at hx
        split_ifs at hx with hcond
        have hview := StateDB.view_objects_of_get hget
        have hx' : (obj.view s.keeper s.ctx).code = some x := by
          show (obj.getCode s.keeper s.ctx).1 = some x
          rw [StateObject.getCode_fst, hx]
          rfl
        have hxhash := h.keccak_code hstored hview
        have hxmem := StateDB.code_mem_codes hco hview
        rw [hx'] at hxhash hxmem
        refine hcoll _ hxmem _ hmem ?_
        exact hxhash.trans (hcond.2.2.trans hhash.symm)
      · intro b hb obj hget hbsu account hacc heq
        refine hkeeps b a account ?_ hacc (by rw [heq]; exact hempty) ?_ ?_ ?_
        · rw [StateDB.hasSuicided_fst hco, StateDB.view_objects_of_get hget]
          exact hbsu
        · rw [StateDB.exist_fst hco, ho]
          rfl
        · rw [StateDB.hasSuicided_fst hco, ho]
          exact hsu
        · rw [StateDB.getCodeHash_fst hco, ho]
          exact heq.symm
      · exact h.code_at_hand hreset ho hsu hempty
  refine ⟨c, hrun, ?_⟩
  intro a
  by_cases hdirty : a ∈ s.journal.sortedDirties
  · obtain ⟨obj, hget⟩ := h.live_of_dirty hdirty
    have hsettled := hset a hdirty obj hget
    have hview := StateDB.view_objects_of_get hget
    refine ⟨?_, ?_⟩
    · intro o ho hsu
      refine ⟨?_, ?_, hcodes a o ho hsu⟩
      · rw [hview] at ho
        obtain rfl := Option.some.inj ho
        have hsu' : obj.suicided = false := hsu
        rw [hsettled.account, hsu']
        rfl
      · intro key
        rw [hview] at ho
        obtain rfl := Option.some.inj ho
        have hsu' : obj.suicided = false := hsu
        rw [hsettled.storage, hsu']
        rfl
    · intro hall
      have hsu : obj.suicided = true := hall _ hview
      rw [hsettled.account, hsu]
      rfl
  · obtain ⟨hacc, hstate⟩ := hother a hdirty
    have hview := h.view_of_not_dirty hreset hdirty
    refine ⟨?_, ?_⟩
    · intro o ho hsu
      refine ⟨?_, ?_, hcodes a o ho hsu⟩
      · rw [hview, baseView, Option.map_eq_some_iff] at ho
        obtain ⟨account, hk', rfl⟩ := ho
        exact hacc.trans hk'
      · intro key
        rw [hview, baseView, Option.map_eq_some_iff] at ho
        obtain ⟨account, hk', rfl⟩ := ho
        rw [hstate]
        simp [StateObject.view, StateObject.getState_fst, newObject]
    · intro hall
      rw [hview] at hall
      rw [hacc]
      cases hk' : s.keeper.getAccount s.ctx a with
      | none => rfl
      | some account =>
          rw [baseView, hk'] at hall
          exact absurd (hall _ rfl) (by simp [StateObject.view, newObject])

/-- **Commit persists exactly the in-memory view.** Run any operations over a lawful store that has
every code under its hash, such that every re-created account is still dirty, and no suicided
account has stored the code hash of a survivor. Then a commit returns, and a fresh `StateDB` over
the committed store reports at every address what the old one reported, and nothing at the
suicided ones. -/
theorem commit_persists (k : Keeper σ) (ctx : σ) (txConfig txConfig' : TxConfig) {ops : List Op}
    {s : StateDB σ} (hk : k.Lawful) (hstored : CodeStored k ctx)
    (hrun : runOps (StateDB.new ctx k txConfig) ops = .ok s) (hcoll : CollisionFree s.codes)
    (hreset : ResetsDirty s) (hkeeps : KeepsCodes s) :
    ∃ ctx', s.commit s.ctx = .ok () ctx' ∧ ∀ a, Persists s (StateDB.new ctx' k txConfig') a := by
  have hwf : Wf s := runOps_wf (wf_new ctx k txConfig) hrun
  obtain ⟨hkeeper, hctx, -⟩ := runOps_store (wf_new ctx k txConfig) hrun
  have hkeeper' : s.keeper = k := hkeeper
  have hctx' : s.ctx = ctx := hctx
  have hco := hwf.ready.coherent
  obtain ⟨c, hcommit, hview⟩ := commit_view hwf (by rw [hkeeper']; exact hk)
    (by rw [hkeeper', hctx']; exact hstored) hcoll hreset hkeeps
  rw [hkeeper'] at hview
  refine ⟨c, hcommit, ?_⟩
  intro a
  have hcot : (StateDB.new c k txConfig').Coherent := (wf_new c k txConfig').ready.coherent
  have hbase : (StateDB.new c k txConfig').view.objects a = baseView k c a :=
    StateDB.view_objects_of_get_none (s := StateDB.new c k txConfig') (GoMap.get_empty a)
  obtain ⟨hlive, hdead⟩ := hview a
  unfold Persists
  rw [StateDB.hasSuicided_fst hco]
  cases ho : s.view.objects a with
  | none =>
      have hnone : baseView k c a = none := by
        rw [baseView, hdead (by simp [ho])]
        rfl
      simp [StateDB.exist_fst hcot, StateDB.getNonce_fst hcot, StateDB.getBalance_fst hcot,
        StateDB.getCodeHash_fst hcot, StateDB.getCode_fst hcot, StateDB.getState_fst hcot,
        StateDB.exist_fst hco, StateDB.getNonce_fst hco, StateDB.getBalance_fst hco,
        StateDB.getCodeHash_fst hco, StateDB.getCode_fst hco, StateDB.getState_fst hco,
        hbase, hnone, ho]
  | some o =>
      by_cases hsu : o.suicided = true
      · have hnone : baseView k c a = none := by
          rw [baseView, hdead (by rintro o' ho'; rw [ho] at ho'; exact Option.some.inj ho' ▸ hsu)]
          rfl
        simp [hsu, StateDB.exist_fst hcot, StateDB.getState_fst hcot, hbase, hnone]
      · rw [Bool.not_eq_true] at hsu
        have hst := hlive o ho hsu
        have hsome : baseView k c a = some ((newObject a o.account).view k c) := by
          rw [baseView, hst.account]
          rfl
        have hcode : ((newObject a o.account).view k c).code =
            codeView k c none o.account.codeHash := StateObject.getCode_fst _
        have hstorage : ∀ key, ((newObject a o.account).view k c).storage key = o.storage key := by
          intro key
          rw [← hst.storage]
          simp [StateObject.view, StateObject.getState_fst, newObject]
        simp only [Option.map_some, Option.getD_some, hsu, Bool.false_eq_true, if_false,
          StateDB.exist_fst hcot, StateDB.getNonce_fst hcot, StateDB.getBalance_fst hcot,
          StateDB.getCodeHash_fst hcot, StateDB.getCode_fst hcot, StateDB.getState_fst hcot,
          StateDB.exist_fst hco, StateDB.getNonce_fst hco, StateDB.getBalance_fst hco,
          StateDB.getCodeHash_fst hco, StateDB.getCode_fst hco, StateDB.getState_fst hco,
          hbase, hsome, ho, hcode, hst.code, hstorage]
        exact ⟨rfl, rfl, rfl, rfl, trivial, fun _ => trivial⟩

end persist

/-- The sample hash does not collide on the sample codes. -/
theorem sampleKeccak_collisionFree :
    letI := sampleKeccak
    CollisionFree {code | code = [] ∨ code = [0] ∨ code = [1]} := by
  let _ := sampleKeccak
  rintro x (rfl | rfl | rfl) y (rfl | rfl | rfl) <;> decide

/-- A run over an empty store that funds an account, sets up a contract with code and storage, and
suicides the funded account. -/
theorem commit_persists_run :
    letI := sampleKeccak
    let a : Address := .ofNat 20 1
    let b : Address := .ofNat 20 2
    let cfg : TxConfig := .newEmpty (.zero 32)
    ∃ s c', runOps (StateDB.new MapStore.new mapKeeper cfg)
        [.addBalance a 5, .setCode b (some [0]), .setState b (.ofNat 32 1) (.ofNat 32 7), .suicide a] =
          .ok s ∧
      s.commit s.ctx = .ok () c' ∧ (∀ x, Persists s (StateDB.new c' mapKeeper cfg) x) ∧
      ((StateDB.new c' mapKeeper cfg).getState b (.ofNat 32 1)).1 = .ofNat 32 7 := by
  let _ := sampleKeccak
  intro a b cfg
  let s : StateDB MapStore := ((((StateDB.new MapStore.new mapKeeper cfg).addBalance a 5).setCode b
    (some [0])).setState b (.ofNat 32 1) (.ofNat 32 7)).suicide a |>.2
  have hrun : runOps (StateDB.new MapStore.new mapKeeper cfg)
      [.addBalance a 5, .setCode b (some [0]), .setState b (.ofNat 32 1) (.ofNat 32 7), .suicide a] =
        .ok s := rfl
  have hwf : Wf s := runOps_wf (wf_new _ _ _) hrun
  have hco := hwf.ready.coherent
  have hentries : s.journal.entries = [.createObjectChange a, .balanceChange a 0,
      .createObjectChange b, .codeChange b none emptyCodeHash,
      .storageChange b (.ofNat 32 1) (.zero 32), .suicideChange a false 5] := by decide +kernel
  have hview : ∀ x, x ≠ a → x ≠ b → s.view.objects x = none := by
    intro x hxa hxb
    rw [hwf.view_of_untouched]
    · rfl
    · intro e he
      rw [hentries] at he
      simp only [List.mem_cons, List.not_mem_nil, or_false] at he
      rcases he with rfl | rfl | rfl | rfl | rfl | rfl <;>
        simp [JournalEntry.target, JournalEntry.dirtied, Ne.symm hxa, Ne.symm hxb]
  have hcoll : CollisionFree s.codes := by
    have hcodes : s.codes ⊆ {code | code = [] ∨ code = [0] ∨ code = [1]} := by
      rintro code (rfl | ⟨x, rfl⟩)
      · exact Or.inl rfl
      · by_cases hxa : x = a
        · subst hxa
          exact Or.inl (by decide +kernel)
        · by_cases hxb : x = b
          · subst hxb
            exact Or.inr (Or.inl (by decide +kernel))
          · left
            rw [StateDB.getCode_fst hco, hview x hxa hxb]
            rfl
    intro x hx y hy
    exact sampleKeccak_collisionFree x (hcodes hx) y (hcodes hy)
  have hreset : ResetsDirty s := by
    intro prev hprev
    rw [hentries] at hprev
    simp at hprev
  have hkeeps : KeepsCodes s := by
    intro x y account _ haccount
    have hnone : s.keeper.getAccount s.ctx x = none := rfl
    rw [hnone] at haccount
    exact absurd haccount (by simp)
  have hstored : CodeStored mapKeeper MapStore.new := by
    constructor
    · intro codeHash code h
      simp [mapKeeper, MapStore.new] at h
    · intro x account h
      simp [mapKeeper, MapStore.new] at h
  obtain ⟨c', hcommit, hpersists⟩ := commit_persists mapKeeper MapStore.new cfg cfg
    mapKeeper_lawful hstored hrun hcoll hreset hkeeps
  refine ⟨s, c', hrun, hcommit, hpersists, ?_⟩
  have hb := hpersists b
  rw [Persists, if_neg (by decide +kernel)] at hb
  rw [hb.2.2.2.2.2]
  decide +kernel

/-- Two contracts of a store share their code, and a run replaces the code of the first one before
it suicides it. No surviving account has the code hash the first one reports at the end, but the
commit deletes the code stored for it, which is the code of the second. -/
theorem commit_loses_shared_code :
    letI := sampleKeccak
    let a : Address := .ofNat 20 1
    let b : Address := .ofNat 20 2
    let contract : Account × Storage := (⟨1, 0, keccak256 [0]⟩, GoMap.empty)
    let c : MapStore := ⟨(GoMap.empty.set a contract).set b contract, GoMap.empty.set (keccak256 [0]) [0]⟩
    mapKeeper.Lawful ∧ CodeStored mapKeeper c ∧ ∃ s c',
      runOps (StateDB.new c mapKeeper (.newEmpty (.zero 32))) [.setCode a (some [1]), .suicide a] =
        .ok s ∧
      CollisionFree s.codes ∧ ResetsDirty s ∧
      (∀ x y, (s.hasSuicided x).1 = true → (s.getCodeHash x).1 ≠ emptyCodeHash →
        (s.exist y).1 = true → (s.hasSuicided y).1 = false →
        (s.getCodeHash y).1 ≠ (s.getCodeHash x).1) ∧
      s.commit s.ctx = .ok () c' ∧ ¬ Persists s (StateDB.new c' mapKeeper (.newEmpty (.zero 32))) b := by
  let _ := sampleKeccak
  intro a b contract c
  let s : StateDB MapStore :=
    (((StateDB.new c mapKeeper (.newEmpty (.zero 32))).setCode a (some [1])).suicide a).2
  have hrun : runOps (StateDB.new c mapKeeper (.newEmpty (.zero 32)))
    [.setCode a (some [1]), .suicide a] = .ok s := rfl
  have hwf : Wf s := runOps_wf (wf_new _ _ _) hrun
  have hco := hwf.ready.coherent
  have hentries : s.journal.entries =
      [.codeChange a (some [0]) (keccak256 [0]), .suicideChange a false 0] := rfl
  -- Away from the two contracts the state is as empty as the store.
  have hview : ∀ x, x ≠ a → x ≠ b → s.view.objects x = none := by
    intro x hxa hxb
    rw [hwf.view_of_untouched]
    · show baseView mapKeeper c x = none
      simp [baseView, mapKeeper, c, GoMap.get_set_of_ne, hxa, hxb]
    · intro e he
      rw [hentries] at he
      simp only [List.mem_cons, List.not_mem_nil, or_false] at he
      rcases he with rfl | rfl <;> simpa [JournalEntry.target, JournalEntry.dirtied] using Ne.symm hxa
  refine ⟨mapKeeper_lawful, ⟨?_, ?_⟩, s, _, hrun, ?_, ?_, ?_, rfl, ?_⟩
  · intro codeHash code hcode
    simp only [mapKeeper, c, GoMap.get_set] at hcode
    split_ifs at hcode with hh
    · rw [hh, ← Option.some.inj hcode]
    · simp at hcode
  · intro x account hx
    right
    refine ⟨[0], ?_⟩
    simp only [mapKeeper, c, GoMap.get_set] at hx ⊢
    split_ifs at hx with h₁ h₂
    · simp only [Option.map_some, Option.some.injEq, contract] at hx
      simp [← hx]
    · simp only [Option.map_some, Option.some.injEq, contract] at hx
      simp [← hx]
    · simp at hx
  · have hcodes : s.codes ⊆ {code | code = [] ∨ code = [0] ∨ code = [1]} := by
      rintro code (rfl | ⟨x, rfl⟩)
      · exact Or.inl rfl
      · by_cases hxa : x = a
        · subst hxa
          exact Or.inr (Or.inr rfl)
        · by_cases hxb : x = b
          · subst hxb
            exact Or.inr (Or.inl rfl)
          · left
            rw [StateDB.getCode_fst hco, hview x hxa hxb]
            rfl
    intro x hx y hy
    exact sampleKeccak_collisionFree x (hcodes hx) y (hcodes hy)
  · intro prev hprev
    rw [hentries] at hprev
    simp at hprev
  · intro x y hx _ hy hny
    have hxa : x = a := by
      by_contra hxa
      by_cases hxb : x = b
      · subst hxb
        exact absurd hx (by decide)
      · rw [StateDB.hasSuicided_fst hco, hview x hxa hxb] at hx
        exact absurd hx (by decide)
    have hyb : y = b := by
      by_contra hyb
      by_cases hya : y = a
      · subst hya
        exact absurd hny (by decide)
      · rw [StateDB.exist_fst hco, hview y hya hyb] at hy
        exact absurd hy (by decide)
    subst hxa hyb
    decide
  · intro hpersists
    rw [Persists, if_neg (by decide)] at hpersists
    exact absurd hpersists.2.2.2.2.1 (by decide)

end Smartdoge.Statedb
