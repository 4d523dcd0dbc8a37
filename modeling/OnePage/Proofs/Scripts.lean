import OnePage.Proofs.Effects

/-! # Results laid down, one by one

A call takes the first of the results that are laid down for calls of its kind and leaves the
others. So what is left after some calls is told by how many there were of each kind
(`Kernel.Spends`), and what comes of a call by the kernel that all of them begin with. -/

namespace OnePage

namespace Kernel

/-- What is laid down for the call of a kind before which there are `n` others. -/
def laid (k : Kernel) (call : SystemCall) (n : Nat) : Option Reply := (k.forced call)[n]?.join

/-- What comes of that call, if its result is only that it succeeds or fails. -/
def verdict (k : Kernel) (call : SystemCall) (n : Nat) : Outcome :=
  match k.laid call n with
  | some (.fails e) => .error e
  | _ => .ok ()

/-- The next `n` calls of a kind succeed. -/
def Grants (k : Kernel) (call : SystemCall) (n : Nat) : Prop :=
  ∀ i < n, k.verdict call i = .ok ()

theorem grants_iff_isOk {k : Kernel} {call : SystemCall} {n : Nat} :
    k.Grants call n ↔ ∀ i < n, (k.verdict call i).isOk := by
  refine forall₂_congr fun i _ => ?_
  rcases k.verdict call i with e | ⟨⟩
  · exact iff_of_false nofun nofun
  · exact iff_of_true rfl rfl

instance (k : Kernel) (call : SystemCall) (n : Nat) : Decidable (k.Grants call n) :=
  decidable_of_iff' _ grants_iff_isOk

theorem Grants.mono {k : Kernel} {call : SystemCall} {m n : Nat} (H : k.Grants call n)
    (h : m ≤ n) : k.Grants call m := fun i hi => H i (Nat.lt_of_lt_of_le hi h)

/-- `k'` is what `calls` make of `k`, none of which opens, closes or watches anything, and which
take the results laid down for `spent`. -/
structure Spends (k : Kernel) (spent : List SystemCall) (calls : List Call) (k' : Kernel) : Prop
    extends k.Extends calls k' where
  forced (call : SystemCall) : k'.forced call = (k.forced call).drop (spent.count call)

namespace Spends
variable {k k' k'' : Kernel} {spent spent' : List SystemCall} {calls more : List Call}

theorem refl (k : Kernel) : k.Spends [] [] k := ⟨.refl k, fun _ => rfl⟩

theorem trans (H : k.Spends spent calls k') (H' : k'.Spends spent' more k'') :
    k.Spends (spent ++ spent') (calls ++ more) k'' where
  toExtends := H.toExtends.trans H'.toExtends
  forced call := by rw [H'.forced, H.forced, List.drop_drop, List.count_append]

protected theorem opened (H : k.Spends spent calls k') (fd : Fd) (resource : Resource) :
    (k.opened fd resource).Spends spent calls (k'.opened fd resource) :=
  ⟨H.toExtends.opened fd resource, H.forced⟩

protected theorem closed (H : k.Spends spent calls k') (fd : Fd) :
    (k.closed fd).Spends spent calls (k'.closed fd) :=
  ⟨H.toExtends.closed fd, H.forced⟩

theorem record (k : Kernel) {call : Call} (h : call.isLog = false) :
    k.Spends [] [call] (Sys.record call k).2 := ⟨.record k h, fun _ => rfl⟩

theorem laid (H : k.Spends spent calls k') (call : SystemCall) (n : Nat) :
    k'.laid call n = k.laid call (spent.count call + n) := by
  rw [Kernel.laid, H.forced, List.getElem?_drop, Kernel.laid]

theorem verdict (H : k.Spends spent calls k') (call : SystemCall) (n : Nat) :
    k'.verdict call n = k.verdict call (spent.count call + n) := by
  rw [Kernel.verdict, H.laid, Kernel.verdict]

theorem verdict_of_not_mem (H : k.Spends spent calls k') {call : SystemCall} (h : call ∉ spent) :
    k'.verdict call 0 = k.verdict call 0 := by
  rw [H.verdict, List.count_eq_zero.2 h]

/-- Calls that succeed do so also after others, as many as are left of them. -/
theorem grants (H : k.Spends spent calls k') {call : SystemCall} {n : Nat}
    (h : k.Grants call (spent.count call + n)) : k'.Grants call n := by
  intro i hi
  rw [H.verdict]
  exact h _ (Nat.add_lt_add_left hi _)

theorem grants_of_not_mem (H : k.Spends spent calls k') {call : SystemCall} {n : Nat}
    (hc : call ∉ spent) (h : k.Grants call n) : k'.Grants call n :=
  H.grants (by rwa [List.count_eq_zero.2 hc, Nat.zero_add])

end Spends

end Kernel

namespace Sys

theorem reply_spends (call : SystemCall) (k : Kernel) :
    ∃ k', reply call k = (k.laid call 0, k') ∧ k.Spends [call] [] k' := by
  cases h : k.forced call with
  | nil =>
    refine ⟨k, by simp [reply, Kernel.laid, h], .refl k, fun c => ?_⟩
    by_cases hc : c = call
    · rw [hc, h, List.drop_nil]
    · rw [List.count_singleton, if_neg (by simpa using Ne.symm hc), List.drop_zero]
  | cons r rest =>
    refine ⟨{ k with forced := k.forced.set call rest }, by simp [reply, Kernel.laid, h],
      .of_eq rfl (set_subset h), fun c => ?_⟩
    by_cases hc : c = call
    · rw [hc, h, List.count_singleton_self, List.drop_one, List.tail_cons]
      exact if_pos rfl
    · rw [List.count_singleton, if_neg (by simpa using Ne.symm hc), List.drop_zero]
      exact if_neg hc

theorem outcome_spends (call : SystemCall) (k : Kernel) :
    ∃ k', outcome call k = (k.verdict call 0, k') ∧ k.Spends [call] [] k' := by
  obtain ⟨k', h, H⟩ := reply_spends call k
  refine ⟨k', ?_, H⟩
  simp only [outcome, Kernel.verdict, StateM.bind_apply, h]
  rcases k.laid call 0 with _ | r
  · rfl
  · cases r <;> rfl

/-- A call whose result is told with it. -/
theorem recorded_spends (call : SystemCall) (entry : Outcome → Call)
    (hentry : ∀ r, (entry r).isLog = false) (k : Kernel) : ∃ k', (do
      let result ← outcome call
      record (entry result)
      return result : Sys Outcome) k = (k.verdict call 0, k') ∧
      k.Spends [call] [entry (k.verdict call 0)] k' := by
  obtain ⟨k₁, h, H⟩ := outcome_spends call k
  exact ⟨(record (entry (k.verdict call 0)) k₁).2, by simp [h], H.trans (.record k₁ (hentry _))⟩

theorem close_spends (fd : Fd) (k : Kernel) :
    ∃ r k', close fd k = (r, k') ∧ (k.closed fd).Spends [.close] [.close fd] k' := by
  obtain ⟨k₁, h, H⟩ := outcome_spends .close k
  exact ⟨k.verdict .close 0, (record (.close fd) (k₁.closed fd)).2, by simp [close, h]; rfl,
    (H.closed fd).trans (.record _ rfl)⟩

end Sys

end OnePage
