/-
# Claiming names

A record gets the name it asks for, or else the first numbered name made from it that is free. The
search has no bound of its own. It ends because the names it tries all differ, so that not more of
them are taken than names are taken at all, and for the same reason a counter of 32 bits does not
run over while fewer than `2 ^ 31` names are taken. So the names that a pass claims all differ,
whatever they are made from and whatever is reserved and counted in between.

Key definitions: `Seeks`, `NameRequest`, `Ledger.answer`.
Key theorems: `seeks_numbered`, `Ledger.nodup_answer`, `claim_takes_first_free`.
-/
import Mathlib.Data.Finset.Card
import ShadeNet.Proofs.Naming

namespace ShadeNet

/-! ### The search -/

/-- The search for a numbered name, from the value of a counter of 32 bits on. It ends at a name
that is free. Behind a name that is taken it goes on with the next value, if the counter has one. -/
inductive Seeks (taken : List String) (base : String) : Int32 → String → Prop
  | free {index : Int32} : base ++ "_" ++ toString index.toInt ∉ taken →
    Seeks taken base index (base ++ "_" ++ toString index.toInt)
  | next {index : Int32} {name : String} : base ++ "_" ++ toString index.toInt ∈ taken →
    index < Int32.maxValue → Seeks taken base (index + 1) name → Seeks taken base index name

/-- A counter that has not run over spells the number it stands for. -/
theorem numberedName_eq (base : String) {index : Nat} (h : index < Nat.pow 2 31) :
    base ++ "_" ++ toString (Int32.ofNat index).toInt = numberedName base index := by
  rw [Int32.toInt_ofNat_of_lt h]
  rfl

/-- The search comes to the first number whose name is free, if that has 32 bits. -/
theorem seeks_numbered {taken : List String} {base : String} {k : Nat} (hk : k < Nat.pow 2 31)
    (hfree : numberedName base k ∉ taken) {index : Nat} (hindex : index ≤ k)
    (htaken : ∀ j, index ≤ j → j < k → numberedName base j ∈ taken) :
    Seeks taken base (Int32.ofNat index) (numberedName base k) := by
  -- down from `k`, where the search ends
  induction hindex using Nat.decreasingInduction with
  | self =>
    have hspelled := numberedName_eq base hk
    rw [← hspelled] at hfree ⊢
    exact Seeks.free hfree
  | of_succ index hlt ih =>
    have hrest := ih fun j hj => htaken j (by omega)
    rw [Int32.ofNat_add] at hrest
    refine Seeks.next ?_ ?_ hrest
    · rw [numberedName_eq base (by omega)]
      exact htaken index (Nat.le_refl index) hlt
    · have hbound : Nat.pow 2 31 = 2147483648 := rfl
      rw [show Int32.maxValue = Int32.ofNat 2147483647 from rfl,
        Int32.ofNat_lt_iff_lt (by omega) (by omega)]
      omega

/-! ### Requests -/

/-- What is asked of the names of a ledger. -/
inductive NameRequest
  /-- A free name made from this one. -/
  | claim (base : String)
  /-- Exactly this name. -/
  | reserve (name : String)
  /-- This name for a record that is written. -/
  | count (name : String)
deriving DecidableEq

namespace Ledger

/-- The names that are claimed by one request. -/
def claimed (l : Ledger) : NameRequest → List String
  | .claim base => [(l.claim base).1]
  | .reserve _ | .count _ => []

/-- The ledger after one request. -/
def next (l : Ledger) : NameRequest → Ledger
  | .claim base => (l.claim base).2
  | .reserve name => l.reserve name
  | .count name => l.countRecord name

/-- The names that are claimed by requests that are made one after another. -/
def answer (l : Ledger) : List NameRequest → List String
  | [] => []
  | request :: rest => l.claimed request ++ (l.next request).answer rest

/-- A claim takes one name more, and that one was free. -/
theorem claim_eq (l : Ledger) (base : String) : l.claim base =
    (freeName l.names base, { l with names := l.names ++ [freeName l.names base] }) := by
  have hadd : addMember l.names (freeName l.names base) = l.names ++ [freeName l.names base] :=
    if_neg (freeName_not_mem l.names base)
  simp only [claim, reserve, hadd]

/-- A request takes no name away. -/
theorem names_next (l : Ledger) (request : NameRequest) : l.names ⊆ (l.next request).names := by
  intro name hname
  cases request <;> exact mem_addMember.mpr (Or.inl hname)

/-- A name that is claimed is free before and taken behind. -/
theorem claimed_new (l : Ledger) (request : NameRequest) :
    ∀ name ∈ l.claimed request, name ∉ l.names ∧ name ∈ (l.next request).names := by
  intro name hname
  cases request with
  | claim base =>
    rw [List.mem_singleton.mp hname]
    exact ⟨freeName_not_mem l.names base, mem_addMember.mpr (Or.inr rfl)⟩
  | reserve other => cases hname
  | count other => cases hname

/-- Names that are claimed later on are free when the requests begin. -/
theorem answer_free (l : Ledger) (requests : List NameRequest) :
    ∀ name ∈ l.answer requests, name ∉ l.names := by
  induction requests generalizing l with
  | nil => exact nofun
  | cons request rest ih =>
    intro name hname
    rcases List.mem_append.mp hname with hnow | hlater
    · exact (l.claimed_new request name hnow).1
    · exact fun htaken => ih _ name hlater (l.names_next request htaken)

/-- Names that are claimed one after another all differ. -/
theorem nodup_answer (l : Ledger) (requests : List NameRequest) : (l.answer requests).Nodup := by
  induction requests generalizing l with
  | nil => exact List.nodup_nil
  | cons request rest ih =>
    have hone : (l.claimed request).Nodup := by
      cases request <;> simp [claimed]
    refine List.nodup_append.mpr ⟨hone, ih _, fun name hnow other hlater heq => ?_⟩
    have htaken := (l.claimed_new request name hnow).2
    exact (l.next request).answer_free rest other hlater (heq ▸ htaken)

end Ledger

/-- **A claim gives the first free name.** While fewer than `2 ^ 31` names are taken, the name that
was asked for is given if it is free. Otherwise the search from the first number on ends, its
counter does not run over, and the name with the least number is given whose name is free. The name
was not taken before, and it is the only one that is taken besides then. So the names that are
claimed by any requests, with others reserved and counted in between, all differ. -/
theorem claim_takes_first_free (l : Ledger) (hfew : l.names.toFinset.card < Nat.pow 2 31)
    (base : String) :
    ∃ name, l.claim base = (name, { l with names := l.names ++ [name] }) ∧ name ∉ l.names ∧
      (base ∉ l.names → name = base) ∧
      (base ∈ l.names → Seeks l.names base 1 name ∧
        ∃ k, 1 ≤ k ∧ k < Nat.pow 2 31 ∧ name = numberedName base k ∧
          ∀ j, 1 ≤ j → j < k → numberedName base j ∈ l.names) ∧
      ∀ requests, (l.answer requests).Nodup ∧ ∀ other ∈ l.answer requests, other ∉ l.names := by
  obtain ⟨k, hname, hfree, hbefore⟩ := freeName_eq_candidate l.names base
  have hsmall : k < Nat.pow 2 31 := by
    have hcandidates : ∀ j < k, candidateName base j ∈ l.names.dedup := fun j hj =>
      List.mem_dedup.mpr (hbefore j hj)
    have hle := le_length_of_candidates hcandidates
    rw [List.card_toFinset] at hfew
    omega
  refine ⟨freeName l.names base, l.claim_eq base, freeName_not_mem _ _, fun hbase => if_neg hbase,
    fun hbase => ?_, fun requests => ⟨l.nodup_answer requests, l.answer_free requests⟩⟩
  rw [hname]
  cases k with
  | zero => exact absurd hbase hfree
  | succ k =>
    have htaken : ∀ j, 1 ≤ j → j < k + 1 → numberedName base j ∈ l.names := fun j hj hlt => by
      cases j with
      | zero => omega
      | succ j => exact hbefore (j + 1) hlt
    have hone : 1 ≤ k + 1 := by omega
    exact ⟨seeks_numbered hsmall hfree hone htaken, k + 1, hone, hsmall, rfl, htaken⟩

/-- A ledger in which names are taken that look numbered. -/
def weightLedger : Ledger := { names := ["Weight_1", "Weight", "Weight_3", "Weight_1_1"] }

theorem claim_takes_first_free_weights :
    weightLedger.names.toFinset.card < Nat.pow 2 31 ∧ "Weight" ∈ weightLedger.names ∧
      (weightLedger.claim "Weight").1 = "Weight_2" ∧
      weightLedger.answer [.claim "Weight_1", .reserve "Weight_2", .claim "Weight", .count "Weight_5",
        .claim "Weight", .claim "Mask"] = ["Weight_1_2", "Weight_4", "Weight_6", "Mask"] ∧
      (weightLedger.claim "Weight").2.names = weightLedger.names ++ ["Weight_2"] := by
  have hfew : weightLedger.names.toFinset.card < Nat.pow 2 31 := by decide
  obtain ⟨name, hclaim, -, -, -, -⟩ := claim_takes_first_free weightLedger hfew "Weight"
  have hname : (weightLedger.claim "Weight").1 = "Weight_2" := by decide +kernel
  refine ⟨hfew, by decide, hname, by decide +kernel, ?_⟩
  rw [hclaim] at hname ⊢
  rw [← hname]

end ShadeNet
