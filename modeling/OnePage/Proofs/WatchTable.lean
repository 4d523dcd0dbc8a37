import OnePage.Proofs.Unforced

/-! # The queue as a table

What is asked of the event queue about a descriptor (`EventQueue.Change`) does to what is watched
what inserting and removing an entry do to a table, if it succeeds, and nothing if it fails
(`Change.Answers`). A change that the kernel refuses may be one that makes no sense or one that is
bound to fail; all that is relied on is that the kernel does not take a descriptor that is watched
for one that is not (`Change.Honest`). -/

namespace OnePage

/-- The descriptor that is not watched, according to a call on the queue. -/
def Call.absent? : Call → Option Fd
  | add fd _ _ (.error .ENOENT) => some fd
  | modify fd _ _ (.error .ENOENT) => some fd
  | delete fd (.error .ENOENT) => some fd
  | _ => none

namespace EventQueue

/-- What can be asked of the queue. -/
inductive Change where
  | register (fd : Fd) (token : Token) (interest : Interest)
  | reregister (fd : Fd) (token : Token) (interest : Interest)
  | deregister (fd : Fd)

namespace Change

/-- The descriptor that is to be watched, or not to be. -/
def fd : Change → Fd
  | register fd _ _ => fd
  | reregister fd _ _ => fd
  | deregister fd => fd

/-- What the descriptor is to be watched for. -/
def watch? : Change → Option Watch
  | register _ token interest => some ⟨token, interest.conditions⟩
  | reregister _ token interest => some ⟨token, interest.conditions⟩
  | deregister _ => none

def run : Change → Sys Outcome
  | register fd token interest => EventQueue.register fd token interest
  | reregister fd token interest => EventQueue.reregister fd token interest
  | deregister fd => EventQueue.deregister fd

/-- No descriptor that is watched is said not to be. -/
def Honest (c : Change) (k : Kernel) : Prop :=
  ∀ fd ∈ (c.run.calls k).filterMap Call.absent?, k.watches.get? fd = none

/-- What comes of a change to a table. -/
structure Answers (t : Table Watch) (c : Change) (result : Outcome) (t' : Table Watch) : Prop where
  done (h : result = .ok ()) : t'.get? c.fd = c.watch?
  /-- Only what is watched can be watched for something else. -/
  present {fd : Fd} {token : Token} {interest : Interest} (h : result = .ok ())
    (hc : c = .reregister fd token interest) : t.contains fd
  /-- What is not watched is forgotten already. -/
  absent {fd : Fd} (hc : c = .deregister fd) (h : t.get? fd = none) : t' = t
  undone {e : Errno} (h : result = .error e) : t' = t
  elsewhere {fd : Fd} (h : fd ≠ c.fd) : t'.get? fd = t.get? fd

/-- Makes changes one after the other. -/
def runAll : List Change → Sys (List Outcome)
  | [] => return []
  | c :: changes => do
    let result ← c.run
    return result :: (← runAll changes)

def HonestAll : List Change → Kernel → Prop
  | [], _ => True
  | c :: changes, k => c.Honest k ∧ HonestAll changes (c.run k).2

inductive AnswersAll : Table Watch → List Change → List Outcome → Table Watch → Prop
  | nil (t : Table Watch) : AnswersAll t [] [] t
  | cons {t t₁ t' : Table Watch} {c : Change} {result : Outcome} {changes : List Change}
    {results : List Outcome} (H : c.Answers t result t₁) (Hs : AnswersAll t₁ changes results t') :
    AnswersAll t (c :: changes) (result :: results) t'

/-- The table that a change leads to, by its result. -/
def apply (t : Table Watch) : Change × Outcome → Table Watch
  | (_, .error _) => t
  | (c, .ok ()) =>
    match c.watch? with
    | some w => t.insert c.fd w
    | none => t.erase c.fd

variable {c : Change} {k k' : Kernel} {t t' : Table Watch} {result : Outcome}

theorem apply_ok_get? (t : Table Watch) (c : Change) (fd : Fd) :
    (apply t (c, .ok ())).get? fd = if fd = c.fd then c.watch? else t.get? fd := by
  cases c with
  | register fd' token interest => exact Table.get?_insert ..
  | reregister fd' token interest => exact Table.get?_insert ..
  | deregister fd' => exact Table.get?_erase ..

theorem Answers.of_apply (ht : t' = apply t (c, result))
    (hpresent : ∀ fd token interest, result = .ok () → c = .reregister fd token interest →
      t.contains fd) : c.Answers t result t' where
  done h := by rw [ht, h, apply_ok_get?, if_pos rfl]
  present h hc := hpresent _ _ _ h hc
  absent hc h := by
    rw [ht, hc]
    rcases result with e | ⟨⟩
    · rfl
    · exact Table.erase_eq_self h
  undone h := by rw [ht, h, apply]
  elsewhere h := by
    rw [ht]
    rcases result with e | ⟨⟩
    · rfl
    · rw [apply_ok_get?, if_neg h]

/-! ## One change -/

/-- A change of what is watched succeeds only if something is watched. -/
theorem contains_of_reregister {fd : Fd} {token : Token} {interest : Interest}
    (h : ((reregister fd token interest).run k).1 = .ok ()) : k.watches.contains fd := by
  obtain ⟨r, k₁, hr, -⟩ := Sys.outcome_spec .epollControl k
  cases hw : k.watches.contains fd with
  | true => rfl
  | false =>
    rcases r with e | ⟨⟩ <;>
      simp [run, EventQueue.reregister, Sys.modifyWatch, Sys.controlResult, hr, hw, Except.isOk,
        Except.toBool] at h

theorem run_watch {fd : Fd} {w : Watch} {calls : List Call}
    (hc : c.fd = fd) (hw : c.watch? = some w)
    (H : (k.onSuccess result (·.watch fd w)).Extends calls k') :
    k'.watches = apply k.watches (c, result) := by
  rw [H.watches]
  rcases result with e | ⟨⟩
  · rfl
  · rw [apply, hw, hc]
    rfl

theorem forgotten_eq_self {e : Errno} (h : e ≠ .ENOENT) : forgotten (.error e) = .error e := by
  cases e with
  | ENOENT => exact absurd rfl h
  | _ => rfl

theorem run_answers (H : c.Honest k) :
    c.Answers k.watches (c.run k).1 (c.run k).2.watches := by
  cases c with
  | register fd token interest =>
    obtain ⟨r, calls, k', h, -, He⟩ := register_spec fd token interest k
    rw [run, h]
    exact .of_apply (run_watch rfl rfl He) fun _ _ _ _ hc => by cases hc
  | reregister fd token interest =>
    obtain ⟨r, k', h, He⟩ := Sys.modifyWatch_spec fd token interest.conditions k
    refine .of_apply ?_ fun _ _ _ hok hc => ?_
    · rw [run, EventQueue.reregister, h]
      exact run_watch rfl rfl He
    · cases hc
      exact contains_of_reregister hok
  | deregister fd =>
    obtain ⟨deleted, k', h, He⟩ := deregister_spec fd k
    refine .of_apply ?_ fun _ _ _ _ hc => by cases hc
    have hcalls : (deregister fd).run.calls k = [.delete fd deleted] :=
      Sys.calls_eq (by rw [run, h, He.trace]; cases deleted <;> rfl)
    rw [run, h]
    rcases deleted with e | ⟨⟩
    · rw [He.watches]
      by_cases he : e = .ENOENT
      · subst he
        have hnone : k.watches.get? fd = none := H fd (by simp [hcalls, Call.absent?])
        exact (Table.erase_eq_self hnone).symm
      · rw [forgotten_eq_self he]
        rfl
    · exact He.watches

/-! ## Changes in a row -/

theorem runAll_answers {changes : List Change} (H : HonestAll changes k) :
    AnswersAll k.watches changes (runAll changes k).1 (runAll changes k).2.watches := by
  induction changes generalizing k with
  | nil => exact .nil k.watches
  | cons c changes ih => exact .cons (run_answers H.1) (ih H.2)

theorem Answers.eq_apply (H : c.Answers t result t') : t' = apply t (c, result) := by
  refine Table.ext fun fd => ?_
  rcases result with e | ⟨⟩
  · rw [H.undone rfl]
    rfl
  · rw [apply_ok_get?]
    split
    · rename_i hfd
      rw [hfd, H.done rfl]
    · rename_i hfd
      exact H.elsewhere hfd

theorem AnswersAll.eq_foldl {changes : List Change} {results : List Outcome}
    (H : AnswersAll t changes results t') : t' = (changes.zip results).foldl apply t := by
  induction H with
  | nil => rfl
  | cons H _ ih => rw [ih, H.eq_apply, List.zip_cons_cons, List.foldl_cons]

theorem runAll_append (changes more : List Change) (k : Kernel) :
    runAll (changes ++ more) k = ((runAll changes k).1 ++ (runAll more (runAll changes k).2).1,
      (runAll more (runAll changes k).2).2) := by
  induction changes generalizing k with
  | nil => rfl
  | cons c changes ih => simp [runAll, ih]

/-! ## Changes that are not bound to fail -/

/-- What comes of a change that is not bound to fail. -/
def natural (watched : Bool) : Change → Outcome
  | reregister .. => if watched then .ok () else .error .ENOENT
  | _ => .ok ()

/-- Whether a change makes sense whatever is watched. -/
def isTotal : Change → Bool
  | reregister .. => false
  | _ => true

theorem natural_of_isTotal {c : Change} (h : c.isTotal) (watched : Bool) :
    c.natural watched = .ok () := by
  cases c with
  | reregister => cases h
  | register | deregister => rfl

/-- What a change does that is not bound to fail. -/
structure Natural (k : Kernel) (c : Change) (k' : Kernel) : Prop where
  run : c.run k = (c.natural (k.watches.contains c.fd), k')
  unforced : k'.Unforced
  honest : c.Honest k

theorem Natural.of_calls {calls : List Call}
    (h : c.run k = (c.natural (k.watches.contains c.fd), k')) (U : k'.Unforced)
    (ht : k'.trace = k.trace ++ calls.toArray)
    (hcalls : ∀ fd ∈ calls.filterMap Call.absent?, k.watches.contains fd = false) :
    Natural k c k' := by
  refine ⟨h, U, fun fd hfd => ?_⟩
  rw [Sys.calls_eq (p := c.run) (by rw [h, ht])] at hfd
  simpa [Table.contains] using hcalls fd hfd

/-- A change that is one call, and one that makes no sense for what is not watched. -/
theorem Natural.of_control {k₁ : Kernel} {result : Outcome} (call : Outcome → Call)
    (H : (if !k.watches.contains c.fd then k else k₁).Continues .stdout [call result] k')
    (hr : result = if !k.watches.contains c.fd then .error .ENOENT else .ok ())
    (U : k.Unforced) (hU : k₁.Unforced) (ht : k₁.trace = k.trace)
    (hrun : c.run k = (c.natural (k.watches.contains c.fd), k'))
    (hok : (call (.ok ())).absent? = none)
    (hfail : (call (.error .ENOENT)).absent? = some c.fd) : Natural k c k' := by
  cases hw : k.watches.contains c.fd with
  | true =>
    simp only [hw, Bool.not_true, Bool.false_eq_true, if_false] at hr H
    refine .of_calls hrun (H.unforced hU) (ht ▸ H.trace) ?_
    simp [hr, hok]
  | false =>
    simp only [hw, Bool.not_false, if_true] at hr H
    refine .of_calls hrun (H.unforced U) H.trace ?_
    simp [hr, hfail, hw]

theorem exists_natural (U : k.Unforced) (c : Change) : ∃ k', Natural k c k' := by
  cases c with
  | register fd token interest =>
    obtain ⟨k', h, H⟩ := register_unforced .stdout U fd token interest
    refine ⟨k', .of_calls h (H.unforced U) H.trace fun fd' hfd => ?_⟩
    unfold registering at hfd
    split at hfd <;> simp [Call.absent?] at hfd
  | reregister fd token interest =>
    obtain ⟨k', h, H⟩ := Sys.control_unforced .stdout U (!k.watches.contains fd) .ENOENT
      (fun H => H.watch fd ⟨token, interest.conditions⟩)
      fun r => show (Call.modify fd token interest.conditions r).isLog = false from rfl
    refine ⟨k', .of_control (.modify fd token interest.conditions) H rfl U U rfl (h.trans ?_)
      rfl rfl⟩
    rw [natural, Change.fd]
    cases k.watches.contains fd <;> rfl
  | deregister fd =>
    obtain ⟨k', h, H⟩ := Sys.control_unforced .stdout U (!k.watches.contains fd) .ENOENT
      (fun H => H.unwatch fd) fun r => show (Call.delete fd r).isLog = false from rfl
    refine ⟨k', .of_control (.delete fd) H rfl U U rfl ?_ rfl rfl⟩
    have hdelete : Sys.delete fd k =
      (if !k.watches.contains fd then .error .ENOENT else .ok (), k') := h
    simp only [run, EventQueue.deregister, StateM.bind_apply, hdelete]
    cases k.watches.contains fd <;> rfl

/-- Changes none of which is bound to fail: those that make sense anyway succeed. -/
theorem runAll_unforced (U : k.Unforced) (changes : List Change) :
    HonestAll changes k ∧ (runAll changes k).2.Unforced ∧
      ∀ c result, (c, result) ∈ changes.zip (runAll changes k).1 → c.isTotal → result = .ok () := by
  induction changes generalizing k with
  | nil => exact ⟨trivial, U, nofun⟩
  | cons c changes ih =>
    obtain ⟨k₁, N⟩ := exists_natural U c
    have hk₁ : (c.run k).2 = k₁ := congrArg Prod.snd N.run
    obtain ⟨hhonest, hunforced, hok⟩ := ih N.unforced
    rw [← hk₁] at hhonest hunforced hok
    refine ⟨⟨N.honest, hhonest⟩, hunforced, fun c' result hmem hc' => ?_⟩
    rcases List.mem_cons.1 hmem with hfirst | hmem
    · obtain ⟨rfl, hresult⟩ := Prod.mk.inj hfirst
      exact (hresult.trans (congrArg Prod.fst N.run)).trans (natural_of_isTotal hc' _)
    · exact hok c' result hmem hc'

/-! ## Refinement -/

/-- Of two changes that succeed for one descriptor only the later one counts. -/
theorem apply_apply (t : Table Watch) {c c' : Change} (h : c.fd = c'.fd) :
    apply (apply t (c, .ok ())) (c', .ok ()) = apply t (c', .ok ()) := by
  refine Table.ext fun fd => ?_
  simp only [apply_ok_get?, h]
  split <;> rfl

theorem run_unforced (U : k.Unforced) (hc : c.isTotal) :
    (c.run k).2.watches = apply k.watches (c, .ok ()) ∧ (c.run k).2.Unforced := by
  obtain ⟨k', N⟩ := exists_natural U c
  have H := (run_answers N.honest).eq_apply
  rw [N.run, natural_of_isTotal hc] at H
  rw [N.run]
  exact ⟨H, N.unforced⟩

theorem runAll_pair (U : k.Unforced) (changes : List Change) {c c' : Change} (h : c.fd = c'.fd)
    (hc : c.isTotal) (hc' : c'.isTotal) :
    (runAll (changes ++ [c, c']) k).2.watches = (runAll (changes ++ [c']) k).2.watches := by
  obtain ⟨-, U', -⟩ := runAll_unforced U changes
  obtain ⟨h₁, U₁⟩ := run_unforced U' hc
  simp only [runAll_append]
  calc (runAll [c, c'] (runAll changes k).2).2.watches
      = apply (c.run (runAll changes k).2).2.watches (c', .ok ()) := (run_unforced U₁ hc').1
    _ = apply (runAll changes k).2.watches (c', .ok ()) := by rw [h₁, apply_apply _ h]
    _ = (runAll [c'] (runAll changes k).2).2.watches := (run_unforced U' hc').1.symm

/-- **The queue is a table.** Whatever changes are made, and whichever of the calls that they make
are bound to fail, each does to what is watched what it does to a table if it succeeds, and nothing
if it fails. Unless something is bound to fail, registering and deregistering succeed; of
registrations in a row only the last one counts, and deregistering twice is deregistering once. -/
theorem queue_refines_table (changes : List Change) (k : Kernel) :
    (HonestAll changes k →
      AnswersAll k.watches changes (runAll changes k).1 (runAll changes k).2.watches ∧
        (runAll changes k).2.watches = (changes.zip (runAll changes k).1).foldl apply k.watches) ∧
      (k.Unforced → HonestAll changes k ∧
        (∀ c result, (c, result) ∈ changes.zip (runAll changes k).1 → c.isTotal →
          result = .ok ()) ∧
        (∀ fd token interest token' interest',
          (runAll (changes ++ [.register fd token interest, .register fd token' interest'])
            k).2.watches =
          (runAll (changes ++ [.register fd token' interest']) k).2.watches) ∧
        ∀ fd, (runAll (changes ++ [.deregister fd, .deregister fd]) k).2.watches =
          (runAll (changes ++ [.deregister fd]) k).2.watches) := by
  refine ⟨fun H => ⟨runAll_answers H, (runAll_answers H).eq_foldl⟩, fun U => ?_⟩
  obtain ⟨hhonest, -, hok⟩ := runAll_unforced U changes
  refine ⟨hhonest, hok, fun fd token interest token' interest' => ?_, fun fd => ?_⟩
  · exact runAll_pair U changes rfl rfl rfl
  · exact runAll_pair U changes rfl rfl rfl

end Change

end EventQueue

/-- Something is watched; the second change to it fails, and so does the first change to what is
not watched, in a way in which only one to something watched fails by itself. -/
def Kernel.rough : Kernel :=
  (({} : Kernel).watch 7 ⟨1, Interest.read.conditions⟩).force
    [(.epollControl, [none, some (.fails .ENOMEM), some (.fails .EEXIST)])]

namespace EventQueue.Change

/-- What is watched stays so until it is forgotten, and is then forgotten already. -/
theorem queue_refines_table_rough :
    HonestAll [.register 7 2 .write, .register 8 3 .read, .deregister 7, .deregister 7] .rough ∧
      (runAll [.register 7 2 .write, .register 8 3 .read, .deregister 7, .deregister 7]
        .rough).1 = [.error .ENOMEM, .error .ENOENT, .ok (), .ok ()] ∧
      (runAll [.register 7 2 .write, .register 8 3 .read, .deregister 7, .deregister 7]
        .rough).2.watches = Kernel.rough.watches.erase 7 := by
  have hhonest : HonestAll
      [.register 7 2 .write, .register 8 3 .read, .deregister 7, .deregister 7] .rough := by
    refine ⟨?_, ?_, ?_, ?_, trivial⟩ <;> unfold Honest <;> decide
  have hresults : (runAll [.register 7 2 .write, .register 8 3 .read, .deregister 7, .deregister 7]
      .rough).1 = [.error .ENOMEM, .error .ENOENT, .ok (), .ok ()] := by rfl
  have H := ((queue_refines_table _ Kernel.rough).1 hhonest).2
  rw [hresults] at H
  exact ⟨hhonest, hresults, H.trans rfl⟩

end EventQueue.Change

end OnePage
