import OnePage.Program
import OnePage.Proofs.Effects

/-! # Messages that end a process

A process that serves makes the calls up to the first message that a standard stream does not take,
and none after that. Where all messages are taken it makes all of them
(`Program.process_unbroken`). What has been done before can be split off
(`Program.process_congr`). -/

namespace OnePage

/-- All that is told is taken. -/
def Unbroken (calls : List Call) : Prop := ∀ call ∈ calls, call.isBreak = false

@[simp] theorem unbroken_append (calls more : List Call) :
    Unbroken (calls ++ more) ↔ Unbroken calls ∧ Unbroken more := List.forall_mem_append

theorem unbroken_iff {calls : List Call} : Unbroken calls ↔ calls.any Call.isBreak = false := by
  simp [Unbroken]

namespace Call

theorem untilBreak_prefix (calls : List Call) : untilBreak calls <+: calls := by
  induction calls with
  | nil => exact List.prefix_rfl
  | cons call calls ih =>
    unfold untilBreak
    split
    · exact List.prefix_append [call] calls
    · exact List.prefix_cons_inj call |>.2 ih

theorem untilBreak_append {calls : List Call} (h : Unbroken calls) (more : List Call) :
    untilBreak (calls ++ more) = calls ++ untilBreak more := by
  induction calls with
  | nil => rfl
  | cons call calls ih =>
    obtain ⟨hcall, h⟩ := List.forall_mem_cons.1 h
    rw [List.cons_append, untilBreak, hcall, ih h]
    rfl

theorem untilBreak_eq_self {calls : List Call} (h : Unbroken calls) : untilBreak calls = calls := by
  simpa [untilBreak] using untilBreak_append h []

end Call

namespace Program
variable {p : Sys Nat} {k : Kernel} {calls : List Call}

theorem cutOff_apply (h : (p k).2.trace = k.trace ++ calls.toArray) :
    cutOff p k = (if calls.any Call.isBreak then brokenCode else (p k).1,
      { (p k).2 with trace := k.trace ++ (Call.untilBreak calls).toArray }) := by
  have hcalls : p.calls k = calls := Sys.calls_eq h
  rw [← hcalls]
  rfl

/-- What a process does after it has served: at most it writes what is left of the log, and tells
why it has ended. -/
theorem finish_spec (log : LogSink) (outcome : Except ServeError Unit) (k : Kernel) :
    ∃ code, ∃ calls : List Call, ∃ k', (do log.release; exitCode outcome : Sys Nat) k = (code, k') ∧
      k'.trace = k.trace ++ calls.toArray ∧
      (∀ call ∈ calls, (∃ bytes, call = .flush bytes) ∨ ∃ text, call = .print .stderr text) ∧
      (code = 0 ↔ outcome = .ok ()) := by
  obtain ⟨released, k₁, h₁, ht₁, hreleased⟩ : ∃ calls : List Call, ∃ k₁, log.release k = ((), k₁) ∧
      k₁.trace = k.trace ++ calls.toArray ∧ ∀ call ∈ calls, ∃ bytes, call = .flush bytes := by
    cases log with
    | stdout | syslog => exact ⟨[], k, rfl, by simp, List.forall_mem_nil _⟩
    | file id => exact ⟨[.flush _], _, rfl, rfl, List.forall_mem_singleton.2 ⟨_, rfl⟩⟩
  rcases outcome with e | ⟨⟩
  · refine ⟨1, released ++ [.print .stderr e.chain.report], _, by simp [h₁]; rfl,
      by simp [ht₁], ?_, by simp⟩
    exact List.forall_mem_append.2 ⟨fun call hcall => .inl (hreleased call hcall),
      List.forall_mem_singleton.2 (.inr ⟨_, rfl⟩)⟩
  · exact ⟨0, released, k₁, by simp [h₁]; rfl, ht₁, fun call hcall => .inl (hreleased call hcall),
      by simp⟩

/-- What a process comes to that serves, by what serving comes to. -/
theorem process_spec {serving : Serving (Except ServeError Unit)} {server server' : Server}
    {outcome : Except ServeError Unit} {k' : Kernel}
    (h : serving server k = ((outcome, server'), k'))
    (ht : k'.trace = k.trace ++ calls.toArray) :
    ∃ code, ∃ more : List Call,
      (process serving server k).1 = (if calls.any Call.isBreak then brokenCode else code) ∧
      (process serving server k).2.trace =
        k.trace ++ (Call.untilBreak (calls ++ more)).toArray ∧
      (∀ call ∈ more, (∃ bytes, call = .flush bytes) ∨ ∃ text, call = .print .stderr text) ∧
      (code = 0 ↔ outcome = .ok ()) := by
  obtain ⟨code, more, k'', h', ht', hmore, hcode⟩ := finish_spec server'.log outcome k'
  have hp : serveOut serving server k = (code, k'') := by
    rw [← h']
    simp [serveOut, StateT.run, h]
  have htrace : (serveOut serving server k).2.trace = k.trace ++ (calls ++ more).toArray := by
    simp [hp, ht', ht]
  have hmute : Unbroken more := fun call hcall => by
    obtain ⟨_, rfl⟩ | ⟨_, rfl⟩ := hmore call hcall <;> rfl
  have hany : (calls ++ more).any Call.isBreak = calls.any Call.isBreak := by
    rw [List.any_append, unbroken_iff.1 hmute, Bool.or_false]
  refine ⟨code, more, ?_, ?_, hmore, hcode⟩
  all_goals rw [process, cutOff_apply htrace]
  rw [hany, hp]

/-- Where all messages are taken, a process does what serving comes to. -/
theorem process_unbroken {serving : Serving (Except ServeError Unit)} {server : Server}
    (ht : (serving server k).2.trace = k.trace ++ calls.toArray) (hc : Unbroken calls) :
    ∃ more : List Call,
      (process serving server k).2.trace = (serving server k).2.trace ++ more.toArray ∧
      (∀ call ∈ more, (∃ bytes, call = .flush bytes) ∨ ∃ text, call = .print .stderr text) ∧
      ((process serving server k).1 = 0 ↔ (serving server k).1.1 = .ok ()) := by
  obtain ⟨code, more, hcode, htrace, hmore, hok⟩ := process_spec (Prod.eta _).symm ht
  have hmute : Unbroken more := fun call hcall => by
    obtain ⟨_, rfl⟩ | ⟨_, rfl⟩ := hmore call hcall <;> rfl
  rw [Call.untilBreak_append hc, Call.untilBreak_eq_self hmute] at htrace
  rw [unbroken_iff.1 hc] at hcode
  exact ⟨more, by simp [htrace, ht], hmore, by rw [hcode]; exact hok⟩

/-- A process that has made some calls goes on in the same way from there. -/
theorem process_congr {f g : Serving (Except ServeError Unit)} {s s' : Server} {k' : Kernel}
    {more : List Call} (h : f s k = g s' k') (ht : k'.trace = k.trace ++ calls.toArray)
    (hc : Unbroken calls) (hg : (g s' k').2.trace = k'.trace ++ more.toArray) :
    process f s k = process g s' k' := by
  have hp : serveOut f s k = serveOut g s' k' := by
    simp only [serveOut, StateT.run, StateM.bind_apply, h]
  obtain ⟨code, last, k'', hlast, htlast, -⟩ :=
    finish_spec (g s' k').1.2.log (g s' k').1.1 (g s' k').2
  have htrace : (serveOut g s' k').2.trace = k'.trace ++ (more ++ last).toArray := by
    have hlast : serveOut g s' k' = (code, k'') := hlast
    rw [hlast, htlast, hg]
    simp
  have htrace' : (serveOut f s k).2.trace = k.trace ++ (calls ++ (more ++ last)).toArray := by
    rw [hp, htrace, ht]
    simp
  rw [process, process, cutOff_apply htrace, cutOff_apply htrace', hp, Call.untilBreak_append hc,
    List.any_append, unbroken_iff.1 hc, ht]
  simp

end Program

end OnePage
