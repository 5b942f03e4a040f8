import Mathlib.Algebra.BigOperators.Ring.Finset
import Mathlib.Algebra.Order.BigOperators.Group.Finset
import MeteredLedger.Proofs.Ledger.Conservation
import MeteredLedger.Proofs.View.Ending

/-!
# The net change of a view

A view can say by how much the balances that it has changed differ from those of the store, all
together. It adds the differences up one after another, in signed numbers of 128 bits, and stops
where one of them is not such a number.

What it says is exact: the entries of all layers in one, one entry for an address, differ from the
store exactly where the view does (`netChange_eq_sum`). And it says something whenever the balances
of the touched addresses fit into a signed number, before all together and after all together: in
whatever order the differences come, the sum of some of them lies between what has been taken away
at most and what has been added at most (`foldlM_addChange_of_fits`). After a frame on a view
without changes it says that nothing has been made or lost.
-/

namespace MeteredLedger

namespace View

/-- The addresses whose accounts lie in some layer, in order. -/
def touched (v : View) : List Address := v.pending.accounts.keys

/-! ### Signed numbers -/

theorem signed?_eq_some_iff {amount : Wei} {n : Int} :
    signed? amount = some n ↔ amount.toNat < 2 ^ 127 ∧ n = amount.toNat := by
  unfold signed?
  rw [BitVec.msb_eq_decide]
  simp only [decide_eq_true_eq]
  split_ifs with h
  · exact ⟨nofun, fun h' => absurd h'.1 (Nat.not_lt.2 h)⟩
  · have hlt : amount.toNat < 2 ^ 127 := Nat.lt_of_not_le h
    rw [Option.some.injEq, BitVec.toInt_eq_toNat_of_lt (by omega)]
    exact ⟨fun e => ⟨hlt, e.symm⟩, fun e => e.2.symm⟩

theorem addSigned?_eq_some_iff {a b n : Int} :
    addSigned? a b = some n ↔ (-2 ^ 127 ≤ a + b ∧ a + b ≤ 2 ^ 127 - 1) ∧ n = a + b := by
  have hmin : (BitVec.intMin 128).toInt = -2 ^ 127 := by decide
  have hmax : (BitVec.intMax 128).toInt = 2 ^ 127 - 1 := by decide
  unfold addSigned?
  rw [hmin, hmax]
  split_ifs with h
  · rw [Option.some.injEq]
    exact ⟨fun e => ⟨h, e.symm⟩, fun e => e.2.symm⟩
  · exact ⟨nofun, fun h' => absurd h'.1 h⟩

/-! ### One account -/

section Entries

variable {s : Store}

/-- The balance of an entry in the store. -/
def balanceBefore (s : Store) (entry : Address × Account) : Nat := (s.account entry.1).balance.toNat

/-- The balance of an entry itself. -/
def balanceAfter (entry : Address × Account) : Nat := entry.2.balance.toNat

/-- **The difference that one account makes**: it is added if both balances and the sum are signed
numbers, and nothing else is answered. -/
theorem addChange_eq_ok_iff {sum n : Int} {entry : Address × Account} :
    addChange s sum entry = .ok n ↔
      (balanceAfter entry < 2 ^ 127 ∧ balanceBefore s entry < 2 ^ 127 ∧
        -2 ^ 127 ≤ sum + (balanceAfter entry - balanceBefore s entry) ∧
        sum + (balanceAfter entry - balanceBefore s entry) ≤ 2 ^ 127 - 1) ∧
      n = sum + (balanceAfter entry - balanceBefore s entry) := by
  have hchange : addChange s sum entry = .ok n ↔
      ((signed? entry.2.balance).bind fun after => (signed? (s.account entry.1).balance).bind
        fun before => addSigned? sum (after - before)) = some n := by
    unfold addChange
    dsimp only [bind]
    split
    · rename_i h
      rw [h, Except.ok.injEq, Option.some.injEq]
    · rename_i h
      simp [h]
  simp only [hchange, Option.bind_eq_some_iff, signed?_eq_some_iff, addSigned?_eq_some_iff]
  constructor
  · rintro ⟨_, ⟨hafter, rfl⟩, _, ⟨hbefore, rfl⟩, ⟨hlow, hhigh⟩, rfl⟩
    exact ⟨⟨hafter, hbefore, hlow, hhigh⟩, rfl⟩
  · rintro ⟨⟨hafter, hbefore, hlow, hhigh⟩, rfl⟩
    exact ⟨_, ⟨hafter, rfl⟩, _, ⟨hbefore, rfl⟩, ⟨hlow, hhigh⟩, rfl⟩

/-! ### One account after another -/

variable {l : List (Address × Account)}

/-- What comes out is what was there and all differences. -/
theorem foldlM_addChange_eq {sum n : Int} (h : l.foldlM (addChange s) sum = .ok n) :
    n = sum + (l.map fun e => (balanceAfter e : Int) - balanceBefore s e).sum := by
  induction l generalizing sum with
  | nil =>
    cases h
    simp
  | cons e l ih =>
    rw [List.foldlM_cons] at h
    obtain ⟨next, he, hrest⟩ := exists_of_bind_ok h
    rw [ih hrest, (addChange_eq_ok_iff.1 he).2, List.map_cons, List.sum_cons, add_assoc]

/-- **No sum on the way is too large.** The sum so far is no less than what the rest can take away,
and no more than what the rest can add, short of the bounds of a signed number. -/
theorem foldlM_addChange_of_fits (sum : Int)
    (hfits : ∀ e ∈ l, balanceBefore s e < 2 ^ 127 ∧ balanceAfter e < 2 ^ 127)
    (hlow : (l.map (balanceBefore s)).sum ≤ 2 ^ 127 - 1 + sum)
    (hhigh : sum + (l.map balanceAfter).sum ≤ 2 ^ 127 - 1) :
    ∃ n, l.foldlM (addChange s) sum = .ok n := by
  induction l generalizing sum with
  | nil => exact ⟨sum, rfl⟩
  | cons e l ih =>
    rw [List.map_cons, List.sum_cons, Nat.cast_add] at hlow hhigh
    obtain ⟨hbefore, hafter⟩ := hfits e List.mem_cons_self
    have he : addChange s sum e = .ok (sum + (balanceAfter e - balanceBefore s e)) :=
      addChange_eq_ok_iff.2 ⟨⟨hafter, hbefore, by omega, by omega⟩, rfl⟩
    obtain ⟨n, hn⟩ := ih (sum + (balanceAfter e - balanceBefore s e))
      (fun e he => hfits e (List.mem_cons_of_mem _ he)) (by omega) (by omega)
    refine ⟨n, ?_⟩
    rw [List.foldlM_cons, he]
    exact hn

end Entries

/-! ### All accounts -/

variable {s : Store} {v : View}

/-- An entry of the changes is the account that the view shows. -/
theorem account_of_mem_pending {e : Address × Account} (h : e ∈ v.pending.accounts.toList) :
    v.account s e.1 = e.2 := by
  rw [Std.ExtTreeMap.mem_toList_iff_getElem?_eq_some, accounts_pending] at h
  rw [account_eq, h]
  rfl

theorem map_touched {α : Type} (f : Address → α) :
    v.touched.map f = v.pending.accounts.toList.map fun e => f e.1 := by
  rw [touched, ← Std.ExtTreeMap.map_fst_toList_eq_keys, List.map_map]
  rfl

/-- **The net change is exact.** An address without an entry shows the store's account. -/
theorem netChange_eq_sum (h : ∀ a, v.backing s a = s.account a) {n : Int}
    (hn : v.netChange s = .ok n) :
    n = ∑ a, ((v.balance s a).toNat - (s.account a).balance.toNat : Int) := by
  rw [foldlM_addChange_eq hn, zero_add]
  refine (Maps.sum_entries v.pending.accounts fun a x =>
    (x.balance.toNat : Int) - (s.account a).balance.toNat).trans
    (Finset.sum_congr rfl fun a _ => ?_)
  rw [accounts_pending, balance, account_eq, h]
  cases v.find? (·.accounts[a]?) with
  | some x => rfl
  | none => exact (sub_self _).symm

/-- **There is a net change if all balances fit**, before and after. -/
theorem netChange_of_fits
    (hbefore : (v.touched.map fun a => (s.account a).balance.toNat).sum ≤ 2 ^ 127 - 1)
    (hafter : (v.touched.map fun a => (v.balance s a).toNat).sum ≤ 2 ^ 127 - 1) :
    ∃ n, v.netChange s = .ok n := by
  have hbefore' : (v.pending.accounts.toList.map (balanceBefore s)).sum ≤ 2 ^ 127 - 1 := by
    rw [map_touched] at hbefore
    exact hbefore
  have hafter' : (v.pending.accounts.toList.map balanceAfter).sum ≤ 2 ^ 127 - 1 := by
    rw [map_touched] at hafter
    have hmap : v.pending.accounts.toList.map balanceAfter
        = v.pending.accounts.toList.map fun e => (v.balance s e.1).toNat :=
      List.map_congr_left fun e he => by rw [balance, account_of_mem_pending he, balanceAfter]
    rw [hmap]
    exact hafter
  refine foldlM_addChange_of_fits 0 (fun e he => ⟨?_, ?_⟩) (by omega) (by omega)
  · have hle := List.single_le_sum (by simp) _ (List.mem_map_of_mem (f := balanceBefore s) he)
    omega
  · have hle := List.single_le_sum (by simp) _ (List.mem_map_of_mem (f := balanceAfter) he)
    omega

/-- The balances of the touched addresses are no more than all balances. -/
theorem sum_touched_le (v : View) (f : Address → Nat) : (v.touched.map f).sum ≤ ∑ a, f a := by
  have hsum := List.sum_toFinset f v.pending.accounts.nodup_keys
  rw [touched, ← hsum]
  exact Finset.sum_le_sum_of_subset (Finset.subset_univ _)

/-- A view with the total of the store has a net change, and it is zero. -/
theorem netChange_eq_zero (h : ∀ a, v.backing s a = s.account a)
    (htotal : (v.sight s).total = s.total) (hfits : s.total ≤ 2 ^ 127 - 1) :
    v.netChange s = .ok 0 := by
  obtain ⟨n, hn⟩ := netChange_of_fits (v := v)
    ((sum_touched_le v fun a => (s.account a).balance.toNat).trans hfits)
    ((sum_touched_le v fun a => (v.balance s a).toNat).trans (htotal.trans_le hfits))
  have hsum : n = ((v.sight s).total : Int) - s.total := by
    rw [netChange_eq_sum h hn, Finset.sum_sub_distrib, Sight.total, Store.total, Nat.cast_sum,
      Nat.cast_sum]
    rfl
  rw [hn, hsum, htotal, sub_self]

end View

/-! ### After a frame -/

/-- What keeps the total of a view that shows the store's leaves no net change behind. -/
theorem View.netChange_of_conserves {s : Store} {v w : View} {isReadOnly : Bool}
    (hv : InFront s isReadOnly v) (hfresh : (v.sight s).total = s.total) (hin : Inside s v w)
    (htotal : (w.sight s).total = (v.sight s).total) (hfits : s.total ≤ 2 ^ 127 - 1) :
    w.netChange s = .ok 0 :=
  netChange_eq_zero (hv.inside hin).backing (htotal.trans hfresh) hfits

open View in
/-- **The net change of a view is exact.** After any operations on a new view, with any scopes still
open, the net change is, if there is one, the sum over all addresses of what the view says less
what the store says; and there is one whenever the balances of the addresses in some layer are at
most the largest signed number, all together in the store and all together in the view. So after any
call and any creation on a new view, successful or not, it is zero, if all balances of the store
together are at most the largest signed number. -/
theorem net_change_exact :
    (∀ (s : Store) (txHash : Hash) (isReadOnly : Bool) (ops : List Operation),
      let v := (Operation.run (View.act s) { fresh with txHash, isReadOnly } ops).2
      (∀ n, v.netChange s = .ok n →
        n = ∑ a, ((v.balance s a).toNat - (s.account a).balance.toNat : Int)) ∧
      ((v.touched.map fun a => (s.account a).balance.toNat).sum ≤ 2 ^ 127 - 1 →
        (v.touched.map fun a => (v.balance s a).toNat).sum ≤ 2 ^ 127 - 1 →
        ∃ n, v.netChange s = .ok n)) ∧
    ∀ (steps : Nat) (env : Setting) (txHash : Hash) (isReadOnly : Bool) (ledger : Meter)
      (r : FrameResult) (w : World), env.store.total ≤ 2 ^ 127 - 1 →
      (∀ c, callIn steps env c ⟨{ fresh with txHash, isReadOnly }, ledger⟩ = .ok (r, w) →
        w.view.netChange env.store = .ok 0) ∧
      (∀ c, createIn steps env c ⟨{ fresh with txHash, isReadOnly }, ledger⟩ = .ok (r, w) →
        w.view.netChange env.store = .ok 0) := by
  refine ⟨fun s txHash isReadOnly ops => ?_,
    fun steps env txHash isReadOnly ledger r w hfits => ⟨fun c h => ?_, fun c h => ?_⟩⟩
  · have hv := (inFront_fresh s txHash isReadOnly).run ops
    exact ⟨fun n hn => netChange_eq_sum hv.backing hn, netChange_of_fits⟩
  · have hin := (callWith_atomic (Exec.run_inside env steps) h).1
    have htotal := callWith_conserves (Exec.run_conserves env steps) h
    exact netChange_of_conserves (inFront_fresh env.store txHash isReadOnly) rfl hin htotal hfits
  · have hin := (createWith_atomic (Exec.run_inside env steps) h).1
    have htotal := createWith_conserves (Exec.run_conserves env steps) h
    exact netChange_of_conserves (inFront_fresh env.store txHash isReadOnly) rfl hin htotal hfits

/-! ### Views that move value -/

/-- The total of a store is that of its entries. -/
theorem Store.total_eq_sum_entries (s : Store) :
    s.total = (s.accounts.toList.map fun e => e.2.balance.toNat).sum := by
  rw [Maps.sum_entries s.accounts fun _ x => x.balance.toNat, total]
  refine Finset.sum_congr rfl fun a _ => ?_
  unfold account
  cases s.accounts[a]? <;> rfl

namespace MovingValue

/-- Account 1 calls account 2 with value. -/
def setting : Setting := { FailingFrames.setting with store }

/-- The call of the message, as a frame below the first. -/
def call : Call := ⟨⟨1⟩, ⟨2⟩, [], 100000, 10, 1⟩

end MovingValue

open View NestedScopes in
/-- Account 1 has given some value away, and nobody has it: one of the scopes is dropped. A call
that moves value between three accounts, and a creation that fails, make and lose nothing. -/
theorem net_change_exact_moving :
    let v := (Operation.run (View.act store) fresh operations).2
    v.touched = [⟨1⟩] ∧ v.netChange store = .ok (-29) ∧
      -29 = ∑ a, ((v.balance store a).toNat - (store.account a).balance.toNat : Int) ∧
    (∃ r w, callIn 40 MovingValue.setting MovingValue.call ⟨fresh, .untracked⟩ = .ok (r, w) ∧
      r.error = none ∧ w.view.touched = [⟨1⟩, ⟨2⟩, ⟨3⟩] ∧
      w.view.netChange MovingValue.store = .ok 0) ∧
    ∃ r w, createIn 40 FailingFrames.setting FailingFrames.creation ⟨fresh, .untracked⟩
        = .ok (r, w) ∧
      r.error ≠ none ∧ w.view.netChange FailingFrames.setting.store = .ok 0 := by
  intro v
  have hview : v.touched = [⟨1⟩] ∧
      (v.touched.map fun a => (store.account a).balance.toNat).sum ≤ 2 ^ 127 - 1 ∧
      (v.touched.map fun a => (v.balance store a).toNat).sum ≤ 2 ^ 127 - 1 ∧
      (v.netChange store).toOption = some (-29) := by
    decide +kernel
  obtain ⟨htouched, hbefore, hafter, hread⟩ := hview
  obtain ⟨hexact, hfits⟩ := net_change_exact.1 store .zero false operations
  obtain ⟨n, hn : v.netChange store = .ok n⟩ := hfits hbefore hafter
  obtain rfl : n = -29 := by
    rw [hn] at hread
    exact Option.some.inj hread
  have hcalled : (callIn 40 MovingValue.setting MovingValue.call ⟨fresh, .untracked⟩).toOption.bind
      (fun x => some (x.1.error, x.2.view.touched)) = some (none, [⟨1⟩, ⟨2⟩, ⟨3⟩]) := by
    decide +kernel
  have hcreated : (createIn 40 FailingFrames.setting FailingFrames.creation
      ⟨fresh, .untracked⟩).toOption.bind (·.1.error) = some (.outOfGas 32000 100) := by
    decide +kernel
  obtain ⟨⟨r, w⟩, hr, he⟩ := exists_of_read hcalled
  obtain ⟨⟨r', w'⟩, hr', he'⟩ := exists_of_read hcreated
  rw [Option.some.injEq, Prod.mk.injEq] at he
  have htotal : MovingValue.store.total ≤ 2 ^ 127 - 1 := by
    rw [Store.total_eq_sum_entries]
    decide +kernel
  have htotal' : FailingFrames.setting.store.total ≤ 2 ^ 127 - 1 := by
    rw [Store.total_eq_sum_entries]
    decide +kernel
  refine ⟨htouched, hn, hexact _ hn, ⟨r, w, hr, he.1, he.2, ?_⟩, r', w', hr', ?_, ?_⟩
  · exact (net_change_exact.2 40 MovingValue.setting .zero false .untracked r w htotal).1 _ hr
  · rw [he']
    exact nofun
  · exact (net_change_exact.2 40 FailingFrames.setting .zero false .untracked r' w' htotal').2 _ hr'

end MeteredLedger
