import Mathlib.Algebra.BigOperators.Fin
import Mathlib.Tactic.Ring
import Provio.Stat
/-!
# GenHash — the function index of a string, and the dictionary that decodes it

The shifts and the subtraction of the loop multiply by 65599, so the index of a string is a polynomial in its chars
(`sdbm_toNat`).  A slot of the dictionary goes to the first string with its index and never changes again
(`genHashes_slot`).  `H5VLprovnc.c` has a copy of its own, over a static array.
-/
namespace Provio

/-! ## The copy in `H5VLprovnc.c` -/

def volDicInit : FuncDic := fun _ => none

def volSdbm : BitVec 64 → CStr → BitVec 64
  | hash, [] => hash
  | hash, c :: msg => volSdbm (c.toBitVec.signExtend 64 + (hash <<< 6) + (hash <<< 16) - hash) msg

def volGenHash (dic : FuncDic) (msg : CStr) : FuncDic × Nat :=
  let hash := volSdbm 0 msg
  let func_index := hash.toNat % statFuncMod
  (if dic func_index = none then Function.update dic func_index (some msg) else dic, func_index)

theorem volSdbm_eq : ∀ (msg : CStr) (hash : BitVec 64), volSdbm hash msg = sdbm hash msg
  | [], _ => rfl
  | c :: msg, hash => by rw [volSdbm, sdbm, volSdbm_eq msg]

theorem volGenHash_eq : volGenHash = genHash := by
  funext dic msg
  unfold volGenHash genHash funcIndex
  rw [volSdbm_eq]

/-! ## The closed form -/

/-- A `char` sign-extended to an `unsigned long`. -/
def charValue (c : UInt8) : Nat := (c.toBitVec.signExtend 64).toNat

def charSum (msg : CStr) : Nat := ∑ i : Fin msg.length, charValue msg[i] * 65599 ^ (msg.length - 1 - i)

theorem charSum_cons (c : UInt8) (msg : CStr) :
    charSum (c :: msg) = charValue c * 65599 ^ msg.length + charSum msg := by
  show ∑ i : Fin (msg.length + 1), charValue (c :: msg)[i] * 65599 ^ (msg.length - i) = _
  rw [Fin.sum_univ_succ]
  congr 1
  apply Finset.sum_congr rfl
  intro i _
  rw [Fin.val_succ, show msg.length - (i + 1) = msg.length - 1 - i by omega]
  rfl

theorem sdbm_step (hash c : BitVec 64) : c + (hash <<< 6) + (hash <<< 16) - hash = hash * 65599#64 + c := by
  bv_omega

theorem sdbm_toNat_from : ∀ (msg : CStr) (hash : BitVec 64),
    (sdbm hash msg).toNat = (hash.toNat * 65599 ^ msg.length + charSum msg) % 2 ^ 64
  | [], hash => by simp [sdbm, charSum, Nat.mod_eq_of_lt hash.isLt]
  | c :: msg, hash => by
    have hstep : (hash * 65599#64 + c.toBitVec.signExtend 64).toNat = (hash.toNat * 65599 + charValue c) % 2 ^ 64 := by
      simp [BitVec.toNat_add, BitVec.toNat_mul, charValue]
    rw [sdbm, sdbm_step, sdbm_toNat_from msg, hstep, charSum_cons, List.length_cons]
    rw [Nat.add_mod, Nat.mod_mul_mod, ← Nat.add_mod]
    congr 1
    ring

theorem sdbm_toNat (msg : CStr) : (sdbm 0 msg).toNat = charSum msg % 2 ^ 64 := by
  simpa using sdbm_toNat_from msg 0

/-! ## A sequence of calls -/

def genHashes : FuncDic → List CStr → FuncDic × List Nat
  | dic, []         => (dic, [])
  | dic, msg :: msgs =>
    let (dic, func_index) := genHash dic msg
    let (dic, indices) := genHashes dic msgs
    (dic, func_index :: indices)

theorem genHashes_indices : ∀ (msgs : List CStr) (dic : FuncDic), (genHashes dic msgs).2 = msgs.map funcIndex
  | [], _ => rfl
  | msg :: msgs, dic => by
    rw [List.map_cons, ← genHashes_indices msgs (genHash dic msg).1]
    rfl

theorem genHash_slot (dic : FuncDic) (msg : CStr) (k : Nat) :
    (genHash dic msg).1 k = (dic k).or (if funcIndex msg = k then some msg else none) := by
  unfold genHash
  by_cases hk : funcIndex msg = k
  · subst hk
    cases hslot : dic (funcIndex msg) <;> simp [hslot]
  · rw [if_neg hk, Option.or_none]
    dsimp only
    split
    · exact Function.update_of_ne (Ne.symm hk) _ _
    · rfl

theorem genHashes_slot (k : Nat) : ∀ (msgs : List CStr) (dic : FuncDic),
    (genHashes dic msgs).1 k = (dic k).or (msgs.find? fun msg => funcIndex msg = k)
  | [], dic => (Option.or_none).symm
  | msg :: msgs, dic => by
    have hrest := genHashes_slot k msgs (genHash dic msg).1
    rw [genHash_slot, Option.or_assoc] at hrest
    rw [show (genHashes dic (msg :: msgs)).1 = (genHashes (genHash dic msg).1 msgs).1 from rfl, hrest, List.find?_cons]
    by_cases hk : funcIndex msg = k <;> simp [hk]

/-- **Every call returns the index of its string, whatever the dictionary holds, and a dictionary that was cleared holds
in each slot the first string that was hashed to it.** -/
theorem genHash_run (msgs : List CStr) :
    (∀ dic, (genHashes dic msgs).2 = msgs.map fun msg => charSum msg % 2 ^ 64 % statFuncMod) ∧
    (∀ k, (∀ msg ∈ msgs, funcIndex msg ≠ k) → (genHashes dicInitInt msgs).1 k = none) ∧
    (∀ before msg after, msgs = before ++ msg :: after → (∀ msg' ∈ before, funcIndex msg' ≠ funcIndex msg) →
      (genHashes dicInitInt msgs).1 (funcIndex msg) = some msg) ∧
    (∀ k msg, (genHashes dicInitInt msgs).1 k = some msg → funcIndex msg = k) ∧
    volDicInit = dicInitInt ∧ ∀ dic msg, volGenHash dic msg = genHash dic msg := by
  have hslot : ∀ k, (genHashes dicInitInt msgs).1 k = msgs.find? fun msg => funcIndex msg = k := by
    intro k
    rw [genHashes_slot]
    rfl
  refine ⟨fun dic => ?_, fun k hk => ?_, fun before msg after hmsgs hbefore => ?_, fun k msg hmsg => ?_, rfl, fun dic msg => ?_⟩
  · rw [genHashes_indices]
    apply List.map_congr_left
    intro msg _
    rw [funcIndex, sdbm_toNat]
  · rw [hslot]
    exact List.find?_eq_none.2 (by simpa using hk)
  · rw [hslot, hmsgs, List.find?_append, List.find?_eq_none.2 (by simpa using hbefore)]
    simp
  · rw [hslot] at hmsg
    simpa using List.find?_some hmsg
  · rw [volGenHash_eq]

end Provio
