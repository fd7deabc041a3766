import LibraryRegistry.CommandLine.Reader
import LibraryRegistry.CommandLine.Values
import LibraryRegistry.Proofs.Text.Integer

/-!
# Options that have come

What an option does when its turn comes: a value that can be read is stored, an option that may be
given once has to be new, and a count goes up to its limit and stays there.

* `occur_store`, `occur_append`, `occur_count`, `occur_switch` — one law for each kind of option
* `int64_of_isInteger`, `uint64_of_isNatural` — all texts of a number are read as that number
* `exists_int64_rejected`, `exists_uint64_rejected` — numbers of other sizes are refused
-/

namespace LibraryRegistry.CommandLine

variable {σ α : Type}

/-! ## Values -/

/-- Every text of a number of 64 bits is read as the number. -/
theorem int64_of_isInteger {n : Int64} {s : String} (h : Text.IsInteger n.toInt s.toList) :
    int64 s = .ok n := by
  have hlower : -((2 ^ 63 : Nat) : Int) ≤ n.toInt := n.le_toInt
  have hupper : n.toInt ≤ ((2 ^ 63 - 1 : Nat) : Int) := Int.le_of_lt_add_one n.toInt_lt
  rw [int64, h.readInt hlower hupper]
  show Except.ok (Int64.ofInt n.toInt) = _
  rw [Int64.ofInt_toInt]

theorem uint64_of_isNatural {n : UInt64} {s : String} (h : Text.IsNatural n.toNat s.toList) :
    uint64 s = .ok n := by
  rw [uint64, h.readNat (Nat.le_of_lt_succ n.toNat_lt)]
  show Except.ok (UInt64.ofNat n.toNat) = _
  rw [UInt64.ofNat_toNat]

/-- A number that is none of 64 bits is refused. -/
theorem exists_int64_rejected {n : Int} {s : String} (h : Text.IsInteger n s.toList)
    (hn : ¬ (-2 ^ 63 ≤ n ∧ n ≤ 2 ^ 63 - 1)) : ∃ complaint, int64 s = .error (.rejected complaint) := by
  have hbounds : ¬ (-((2 ^ 63 : Nat) : Int) ≤ n ∧ n ≤ ((2 ^ 63 - 1 : Nat) : Int)) := hn
  obtain ⟨fault, hfault⟩ := h.exists_fault hbounds
  rw [int64, hfault]
  exact ⟨_, rfl⟩

/-- So is a negative one where no sign is expected. -/
theorem exists_uint64_rejected {n : Int} (hn : ¬ (0 ≤ n ∧ n ≤ 2 ^ 64 - 1)) :
    ∃ complaint, uint64 (toString n) = .error (.rejected complaint) := by
  cases n with
  | ofNat n =>
    have hlt : 2 ^ 64 - 1 < n := by
      have hlarge : ¬ (0 ≤ (n : Int) ∧ (n : Int) ≤ 2 ^ 64 - 1) := hn
      omega
    have hfault := (Text.IsNatural.unsigned (Text.isDigits_toString n)).readNat_of_lt hlt
    refine ⟨Text.IntegerFault.message .tooLarge, ?_⟩
    show uint64 (toString n) = _
    rw [uint64, hfault]
    rfl
  | negSucc n =>
    rw [uint64, Text.toList_toString_negSucc, Text.readNat_minus]
    exact ⟨_, rfl⟩

theorem path_of_ne_empty {s : String} (h : s ≠ "") : path s = .ok s := if_neg h

/-- Counting up to the limit. -/
theorem countUp_min (n : Nat) : countUp (min n maxCount) = min (n + 1) maxCount := by
  unfold countUp
  omega

/-! ## Options -/

namespace Progress

variable {q : Progress σ} {o : Parameter σ} {s : String} {value : α}
  {read : String → Except ValueFault α} {set : σ → α → σ}

theorem changeBy_storing (hread : read s = .ok value) :
    q.changeBy o (storing read set) (some s) = .ok (q.change o.long (set q.settings value)) := by
  have hstore : storing read set q.settings s = .ok (set q.settings value) := by
    rw [storing, hread]
    rfl
  rw [changeBy]
  simp only [hstore]

/-- An option that may be given once stores its value, if it is new. -/
theorem occur_store (ho : o.action = .store (storing read set)) (hread : read s = .ok value)
    (hnew : o.long ∉ q.given) :
    q.occur o (some s) = .ok (q.change o.long (set q.settings value)) := by
  have hfree : q.given.contains o.long = false := by simpa using hnew
  rw [occur, ho]
  simp only [hfree, Bool.and_false, Bool.false_eq_true, if_false]
  exact changeBy_storing hread

/-- A value that cannot be read is complained about with the label of its option. -/
theorem occur_store_rejected {complaint : String} (ho : o.action = .store (storing read set))
    (hread : read s = .error (.rejected complaint)) (hnew : o.long ∉ q.given) :
    q.occur o (some s) = .error (.invalidValue o.label complaint) := by
  have hfree : q.given.contains o.long = false := by simpa using hnew
  have hstore : storing read set q.settings s = .error (.rejected complaint) := by
    rw [storing, hread]
    rfl
  rw [occur, ho]
  simp only [hfree, Bool.and_false, Bool.false_eq_true, if_false, changeBy, hstore]

theorem occur_append (ho : o.action = .append (storing read set)) (hread : read s = .ok value) :
    q.occur o (some s) = .ok (q.change o.long (set q.settings value)) := by
  rw [occur, ho]
  exact changeBy_storing hread

theorem occur_count {change : σ → σ} (ho : o.action = .count change) :
    q.occur o none = .ok (q.change o.long (change q.settings)) := by
  rw [occur, ho]

theorem occur_switch {change : σ → σ} (ho : o.action = .switch change) (hnew : o.long ∉ q.given) :
    q.occur o none = .ok (q.change o.long (change q.settings)) := by
  have hfree : q.given.contains o.long = false := by simpa using hnew
  rw [occur, ho]
  simp only [hfree, Bool.false_eq_true, if_false]

end Progress

end LibraryRegistry.CommandLine
