import OnePage.Log.Sink
import OnePage.Proofs.Steps

/-! # What comes of a message

A standard stream takes a line, or the process ends there. A file takes a line together with what
has been kept for it before, and what it does not take is kept or lost: so what it has taken is,
in order, what it was given, and some of that is missing only where there was a complaint
(`LogSink.Yields`, `Carries`). -/

namespace OnePage

/-! ## Streams -/

/-- No more is taken than there is, and all of it if nothing fails. -/
theorem Delivery.run_spec (otherwise : Outcome) (stuck : WriteError) (replies : List (Option Reply))
    (n : Nat) : (run otherwise stuck replies n).taken ≤ n ∧
      ((run otherwise stuck replies n).result = .ok () →
        (run otherwise stuck replies n).taken = n) := by
  have hlast (replies : List (Option Reply)) (n : Nat) :
      (run.last otherwise replies n).taken ≤ n ∧
        ((run.last otherwise replies n).result = .ok () →
          (run.last otherwise replies n).taken = n) := by
    unfold run.last
    split <;> simp
  fun_induction run otherwise stuck replies n with
  | case1 => simp
  | case2 | case7 => exact hlast _ _
  | case3 => assumption
  | case4 | case5 => simp
  | case6 n m replies hm more ih =>
    obtain ⟨hle, hok⟩ := ih
    refine ⟨?_, fun h => ?_⟩
    · dsimp only [more]
      omega
    · have hall := hok h
      dsimp only [more]
      omega

/-- The results that are left are some of those that there were. -/
theorem Delivery.replies_subset (otherwise : Outcome) (stuck : WriteError)
    (replies : List (Option Reply)) (n : Nat) :
    (run otherwise stuck replies n).replies ⊆ replies := by
  have hlast (replies : List (Option Reply)) (n : Nat) :
      (run.last otherwise replies n).replies ⊆ replies := by
    unfold run.last
    split <;> exact List.Subset.refl _
  fun_induction run otherwise stuck replies n with
  | case1 => exact List.Subset.refl _
  | case2 => exact hlast _ _
  | case3 _ _ ih => exact List.subset_cons_of_subset _ ih
  | case4 | case5 => exact List.subset_cons_self _ _
  | case6 => exact List.subset_cons_of_subset _ ‹_›
  | case7 => exact List.subset_cons_of_subset _ (hlast _ _)

/-- Whether a result keeps a standard stream from taking what it is given. One that is closed does
not. -/
def Reply.refuses : Option Reply → Bool
  | some (.fails e) => e != .EINTR && e != .EBADF
  | some (.value n) => n == 0
  | _ => false

theorem Delivery.result_of_heard (stuck : WriteError) {replies : List (Option Reply)} (n : Nat)
    (h : ∀ reply ∈ replies, Reply.refuses reply = false) (e : WriteError)
    (he : (run (.ok ()) stuck replies n).result = .error e) : e = .os .EBADF := by
  have hlast (replies : List (Option Reply)) (n : Nat) :
      (run.last (.ok ()) replies n).result = .ok () := rfl
  fun_induction run (.ok ()) stuck replies n with
  | case1 => cases he
  | case2 | case7 =>
    rw [hlast] at he
    cases he
  | case3 _ _ ih => exact ih (List.forall_mem_cons.1 h).2 he
  | case4 e' replies n hne =>
    cases he
    simpa [Reply.refuses, hne] using (List.forall_mem_cons.1 h).1
  | case5 => simp [Reply.refuses] at h
  | case6 _ _ _ _ _ ih => exact ih (List.forall_mem_cons.1 h).2 he

/-- Whether the standard streams take all that they are given, as far as results are laid down. -/
def Kernel.Heard (k : Kernel) : Prop :=
  ∀ stream : Stream, ∀ reply ∈ k.forced stream.call, Reply.refuses reply = false

/-- What comes of writing to a standard stream: it takes all, it is closed and nobody hears of the
rest, or it takes no more, which ends the process. -/
inductive Stream.Delivers (stream : Stream) (bytes : List UInt8) : Output → Prop
  | taken : Delivers stream bytes (.print stream bytes)
  | unheard (n : Nat) : Delivers stream bytes (.print stream (bytes.take n))
  | broken (n : Nat) (cause : WriteError) :
    Delivers stream bytes (.broken stream (bytes.take n) cause)

/-- Calls that write, to a standard stream or to the log's file. -/
def SystemCall.isWrite : SystemCall → Bool
  | writeOut => true
  | writeError => true
  | append => true
  | _ => false

/-- Whether kernels differ in nothing but what writing makes use of. -/
structure Kernel.Wrote (k k' : Kernel) : Prop where
  rest : k' = { k with files := k'.files, unwritten := k'.unwritten, forced := k'.forced }
  forced {call : SystemCall} (h : call.isWrite = false) : k'.forced call = k.forced call
  streams (stream : Stream) : k'.forced stream.call ⊆ k.forced stream.call

namespace Kernel.Wrote
variable {k k' k'' : Kernel}

theorem refl (k : Kernel) : k.Wrote k := ⟨rfl, fun _ => rfl, fun _ => List.Subset.refl _⟩

theorem trans (H : k.Wrote k') (H' : k'.Wrote k'') : k.Wrote k'' where
  rest := by rw [H'.rest, H.rest]
  forced h := (H'.forced h).trans (H.forced h)
  streams stream := List.Subset.trans (H'.streams stream) (H.streams stream)

theorem heard (H : k.Wrote k') (h : k.Heard) : k'.Heard :=
  fun stream reply hreply => h stream reply (H.streams stream hreply)

theorem set_forced (k : Kernel) {call : SystemCall} (h : call.isWrite)
    {replies : List (Option Reply)}
    (hs : ∀ stream : Stream, stream.call = call → replies ⊆ k.forced call) :
    k.Wrote { k with forced := k.forced.set call replies } where
  rest := rfl
  forced {call'} h' := by
    have hne : call' ≠ call := by
      rintro rfl
      rw [h] at h'
      cases h'
    simp [Forced.set, hne]
  streams stream := by
    by_cases hc : stream.call = call
    · simpa [Forced.set, hc] using hs stream hc
    · simp [Forced.set, hc]

end Kernel.Wrote

theorem Sys.deliver_spec (stream : Stream) (bytes : List UInt8) (k : Kernel) :
    ∃ output k', deliver stream bytes k = (output, k') ∧ stream.Delivers bytes output ∧
      k.Wrote k' ∧ k'.files = k.files ∧ k'.unwritten = k.unwritten ∧
      (k.Heard → output.isBroken = false) := by
  obtain ⟨-, hall⟩ := Delivery.run_spec (.ok ()) .untaken (k.forced stream.call) bytes.length
  have hsub := Delivery.replies_subset (.ok ()) .untaken (k.forced stream.call) bytes.length
  have hheard (h : k.Heard) := Delivery.result_of_heard .untaken bytes.length (h stream)
  have hw : stream.call.isWrite := by cases stream <;> rfl
  simp only [deliver, StateM.bind_apply, StateM.get_apply, StateM.set_apply]
  generalize Delivery.run (.ok ()) .untaken (k.forced stream.call) bytes.length = delivery
    at hall hsub hheard
  have H := Kernel.Wrote.set_forced k hw fun _ _ => hsub
  rcases hresult : delivery.result with e | ⟨⟩
  · by_cases he : e = .os .EBADF
    · exact ⟨_, _, by simp [he], .unheard delivery.taken, H, rfl, rfl, fun _ => rfl⟩
    · exact ⟨_, _, by simp [he], .broken delivery.taken e, H, rfl, rfl,
        fun h => absurd (hheard h e hresult) he⟩
  · rw [hall hresult, List.take_length]
    exact ⟨_, _, rfl, .taken, H, rfl, rfl, fun _ => rfl⟩

/-! ## Files -/

namespace Buffer

/-- All that has been written so far, whether the file has taken it or not. -/
def all (b : Buffer) : List UInt8 := b.taken ++ b.kept

theorem bind_apply (x : Step Unit) (f : Unit → Step Unit) (b : Buffer) :
    (x >>= f) b = match x b with
      | (.ok (), b') => f () b'
      | (.error e, b') => (.error e, b') := by
  change ExceptT.bindCont f (x b).1 (x b).2 = _
  rcases x b with ⟨_ | ⟨⟩, b'⟩ <;> rfl

/-- Whether a step from `b` hands on bytes: they come after what was there, in their order, and all
of them if the step succeeds. -/
structure Hands (step : Step Unit) (b : Buffer) (bytes : List UInt8) : Prop where
  sublist : (step b).2.all.Sublist (b.all ++ bytes)
  whole (h : (step b).1 = .ok ()) : (step b).2.all = b.all ++ bytes

theorem Hands.congr {x y : Step Unit} {b : Buffer} {bytes : List UInt8} (h : x b = y b)
    (H : Hands y b bytes) : Hands x b bytes where
  sublist := by rw [h]; exact H.sublist
  whole hx := by rw [h] at hx ⊢; exact H.whole hx

theorem Hands.bind {x y : Step Unit} {b : Buffer} {bytes more : List UInt8} (H : Hands x b bytes)
    (H' : (x b).1 = .ok () → Hands y (x b).2 more) : Hands (do x; y) b (bytes ++ more) := by
  obtain ⟨hsub, hwhole⟩ := H
  have hrun := bind_apply x (fun _ => y) b
  generalize x b = result at *
  obtain ⟨_ | ⟨⟩, b'⟩ := result
  · constructor
    · rw [hrun, ← List.append_assoc]
      exact hsub.trans (List.sublist_append_left _ _)
    · rw [hrun]
      exact fun h => by cases h
  · obtain ⟨hsub', hwhole'⟩ := H' rfl
    have hwhole : b'.all = b.all ++ bytes := hwhole rfl
    rw [hwhole] at hsub' hwhole'
    constructor
    · rw [hrun, ← List.append_assoc]
      exact hsub'
    · rw [hrun, ← List.append_assoc]
      exact hwhole'

theorem kept_bind {x y : Step Unit} {b : Buffer}
    (hy : ∀ b, (y b).1 = .ok () → (y b).2.kept = []) (h : ((do x; y) b).1 = .ok ()) :
    ((do x; y) b).2.kept = [] := by
  rw [bind_apply x (fun _ => y)] at h ⊢
  generalize x b = result at h ⊢
  obtain ⟨_ | ⟨⟩, b'⟩ := result
  · cases h
  · exact hy b' h

section
variable (otherwise : Outcome) {b : Buffer} {bytes : List UInt8}

theorem flush_apply (b : Buffer) : flush otherwise b =
    let delivery := Delivery.run otherwise .keptUntaken b.replies b.kept.length
    (delivery.result, {
      kept := b.kept.drop delivery.taken
      taken := b.taken ++ b.kept.take delivery.taken
      replies := delivery.replies }) := rfl

theorem write_apply (bytes : List UInt8) (b : Buffer) : write otherwise bytes b =
    let delivery := Delivery.run otherwise .untaken b.replies bytes.length
    (delivery.result, { b with
      taken := b.taken ++ bytes.take delivery.taken
      replies := delivery.replies }) := rfl

/-- Only the place changes of what is kept. Nothing stays there if nothing fails. -/
theorem flush_spec (b : Buffer) : Hands (flush otherwise) b [] ∧
    ((flush otherwise b).1 = .ok () → (flush otherwise b).2.kept = []) := by
  obtain ⟨-, hall⟩ := Delivery.run_spec otherwise .keptUntaken b.replies b.kept.length
  have hsame : (flush otherwise b).2.all = b.all ++ [] := by simp [flush_apply, all]
  refine ⟨⟨hsame ▸ List.Sublist.refl _, fun _ => hsame⟩, fun h => ?_⟩
  have hall := hall h
  simp [flush_apply, hall]

/-- Bytes that are written past what is kept come after it, since there is none. -/
theorem write_hands (hb : b.kept = []) (bytes : List UInt8) :
    Hands (write otherwise bytes) b bytes := by
  obtain ⟨-, hall⟩ := Delivery.run_spec otherwise .untaken b.replies bytes.length
  constructor
  · simp [write_apply, all, hb, List.take_sublist]
  · intro h
    have hall := hall h
    simp [write_apply, all, hb, hall]

theorem keep_hands (b : Buffer) (bytes : List UInt8) :
    Hands (modify fun b => { b with kept := b.kept ++ bytes }) b bytes := by
  have hall : { b with kept := b.kept ++ bytes }.all = b.all ++ bytes :=
    (List.append_assoc ..).symm
  exact ⟨hall ▸ List.Sublist.refl _, fun _ => hall⟩

theorem put_hands (b : Buffer) (bytes : List UInt8) : Hands (put otherwise bytes) b bytes := by
  have hcapacity : 0 < capacity := by decide
  let rest : Step Unit := if capacity ≤ bytes.length then write otherwise bytes
    else modify fun b => { b with kept := b.kept ++ bytes }
  -- what could never be kept is written only after all that is kept
  have hrest {b : Buffer} (hb : capacity ≤ bytes.length → b.kept = []) : Hands rest b bytes := by
    dsimp only [rest]
    split
    · exact write_hands otherwise (hb ‹_›) bytes
    · exact keep_hands b bytes
  have hput : put otherwise bytes b = (do
      if capacity - b.kept.length < bytes.length then flush otherwise
      rest : Step Unit) b := rfl
  by_cases hroom : capacity - b.kept.length < bytes.length
  · obtain ⟨Hf, hempty⟩ := flush_spec otherwise b
    rw [if_pos hroom] at hput
    exact .congr hput (Hf.bind fun h => hrest fun _ => hempty h)
  · rw [if_neg hroom] at hput
    exact .congr (hput.trans rfl) (hrest fun _ => List.length_eq_zero_iff.1 (by omega))

theorem putLine_spec (text : String) (b : Buffer) :
    Hands (putLine otherwise text) b (Text.bytes (text ++ "\n")) ∧
      ((putLine otherwise text b).1 = .ok () → (putLine otherwise text b).2.kept = []) := by
  have hbytes : Text.bytes (text ++ "\n") = Text.bytes text ++ (Text.bytes "\n" ++ []) := by
    simp [Text.bytes, String.toList_append]
  rw [hbytes]
  exact ⟨(put_hands otherwise b _).bind fun _ => (put_hands otherwise _ _).bind fun _ =>
      (flush_spec otherwise _).1,
    kept_bind fun _ => kept_bind fun b => (flush_spec otherwise b).2⟩

end

end Buffer

theorem Sys.appendLine_spec (id : FileId) (text : String) (k : Kernel) :
    ∃ taken result k', appendLine id text k = ((taken, result), k') ∧ k.Wrote k' ∧
      k'.files = k.files.append id taken ∧
      (taken ++ k'.unwritten).Sublist (k.unwritten ++ Text.bytes (text ++ "\n")) ∧
      (result = .ok () → taken = k.unwritten ++ Text.bytes (text ++ "\n") ∧
        k'.unwritten = []) := by
  let b : Buffer := { kept := k.unwritten, replies := k.forced .append }
  have hrun : appendLine id text k =
      let done := Buffer.putLine (k.files.takes id) text b
      ((done.2.taken, done.1), { k with
        files := k.files.append id done.2.taken
        unwritten := done.2.kept
        forced := k.forced.set .append done.2.replies }) := rfl
  obtain ⟨⟨hsub, hwhole⟩, hempty⟩ := Buffer.putLine_spec (k.files.takes id) text b
  generalize Buffer.putLine (k.files.takes id) text b = done at *
  obtain ⟨result, b'⟩ := done
  have hw : SystemCall.append.isWrite := rfl
  refine ⟨b'.taken, result, _, hrun, ?_, rfl, hsub, fun h => ⟨?_, hempty h⟩⟩
  · have hstream (stream : Stream) (h : stream.call = .append) : b'.replies ⊆ k.forced .append := by
      cases stream <;> cases h
    have Hk := Kernel.Wrote.set_forced k hw hstream
    exact ⟨rfl, Hk.forced, Hk.streams⟩
  · have hall : b'.taken ++ b'.kept = k.unwritten ++ Text.bytes (text ++ "\n") := hwhole h
    rwa [show b'.kept = [] from hempty h, List.append_nil] at hall

/-! ## Logs -/

/-- What a part of what comes of a message puts into the log's file. -/
def Output.appended : Output → List UInt8
  | append bytes => bytes
  | _ => []

theorem Stream.Delivers.appended {stream : Stream} {bytes : List UInt8} {output : Output}
    (H : stream.Delivers bytes output) : output.appended = [] := by
  cases H <;> rfl

/-- Of what comes of a message that is not all taken, the file has what it took. -/
theorem Stream.Delivers.appended_cons {stream : Stream} {bytes taken : List UInt8}
    {output : Output} (H : stream.Delivers bytes output) :
    [.append taken, output].flatMap Output.appended = taken := by
  rw [List.flatMap_cons, List.flatMap_singleton, H.appended]
  exact List.append_nil taken

namespace LogSink

/-- The line that a message is written as. -/
def line (severity : Severity) (message : String) : List UInt8 :=
  Text.bytes (severity.label ++ message ++ "\n")

/-- What comes of a message to a log whose file still has to take some bytes, and what the file has
to take afterwards. -/
inductive Yields (severity : Severity) (message : String) :
    LogSink → List UInt8 → List Output → List UInt8 → Prop
  | printed {left : List UInt8} {output : Output}
    (H : severity.stream.Delivers (line severity message) output) :
    Yields severity message .stdout left [output] left
  | reported {left : List UInt8}
    (h : (severity.label ++ message).toList.contains (Char.ofNat 0) = false) :
    Yields severity message .syslog left
      [.syslog severity.priority messageFormat (severity.label ++ message)] left
  | unreported {left : List UInt8} {output : Output}
    (h : (severity.label ++ message).toList.contains (Char.ofNat 0))
    (H : Stream.stderr.Delivers (Text.bytes (complaint "data provided contains a nul byte"))
      output) : Yields severity message .syslog left [output] left
  | written {id : FileId} (left : List UInt8) :
    Yields severity message (.file id) left [.append (left ++ line severity message)] []
  | kept {id : FileId} {left taken left' : List UInt8} {e : WriteError} {output : Output}
    (h : (taken ++ left').Sublist (left ++ line severity message))
    (H : Stream.stderr.Delivers (Text.bytes (complaint e.message)) output) :
    Yields severity message (.file id) left [.append taken, output] left'

/-- The files after what has come of a message. -/
def filesAfter : LogSink → List Output → Files → Files
  | file id, outputs, files => files.append id (outputs.flatMap Output.appended)
  | _, _, files => files

theorem put_spec (sink : LogSink) (severity : Severity) (message : String) (k : Kernel) :
    ∃ outputs k', sink.put severity message k = (outputs, k') ∧ k.Wrote k' ∧
      k'.files = sink.filesAfter outputs k.files ∧
      sink.Yields severity message k.unwritten outputs k'.unwritten ∧
      (k.Heard → ∀ output ∈ outputs, output.isBroken = false) := by
  cases sink with
  | stdout =>
    obtain ⟨output, k', h, H, Hk, hfiles, hleft, hheard⟩ :=
      Sys.deliver_spec severity.stream (line severity message) k
    refine ⟨[output], k', ?_, Hk, hfiles, hleft ▸ .printed H,
      fun h => List.forall_mem_singleton.2 (hheard h)⟩
    rw [line] at h
    simp only [put, StateM.bind_apply, h]
    rfl
  | syslog =>
    by_cases hnul : (severity.label ++ message).toList.contains (Char.ofNat 0)
    · obtain ⟨output, k', h, H, Hk, hfiles, hleft, hheard⟩ := Sys.deliver_spec .stderr
        (Text.bytes (complaint "data provided contains a nul byte")) k
      refine ⟨[output], k', ?_, Hk, hfiles, hleft ▸ .unreported hnul H,
        fun h => List.forall_mem_singleton.2 (hheard h)⟩
      simp only [put, hnul, if_true, StateM.bind_apply, complain, h]
      rfl
    · refine ⟨_, k, ?_, .refl k, rfl, .reported (Bool.eq_false_iff.2 hnul),
        fun _ => List.forall_mem_singleton.2 rfl⟩
      simp only [put, if_neg hnul]
      rfl
  | file id =>
    obtain ⟨taken, result, k₁, h₁, Hk₁, hfiles₁, hsub, hwhole⟩ :=
      Sys.appendLine_spec id (severity.label ++ message) k
    rcases result with e | ⟨⟩
    · obtain ⟨output, k', h, H, Hk, hfiles, hleft, hheard⟩ :=
        Sys.deliver_spec .stderr (Text.bytes (complaint e.message)) k₁
      refine ⟨[.append taken, output], k', ?_, Hk₁.trans Hk, ?_, .kept (hleft ▸ hsub) H,
        fun h => List.forall_mem_cons.2 ⟨rfl, List.forall_mem_singleton.2 (hheard (Hk₁.heard h))⟩⟩
      · simp only [put, StateM.bind_apply, h₁, complain, h]
        rfl
      · rw [filesAfter, H.appended_cons, hfiles, hfiles₁]
    · obtain ⟨rfl, hleft⟩ := hwhole rfl
      refine ⟨[.append (k.unwritten ++ line severity message)], k₁, ?_, Hk₁, ?_, ?_,
        fun _ => List.forall_mem_singleton.2 rfl⟩
      · simp only [put, StateM.bind_apply, h₁]
        rfl
      · simp [filesAfter, hfiles₁, Output.appended, line]
      · rw [hleft]
        exact .written k.unwritten

end LogSink

/-! ## What a file has of what it was given -/

namespace Call

/-- Whether a message is handed to the log. -/
def isLog : Call → Bool
  | log .. => true
  | _ => false

/-- What is written to the log's file for it to take. -/
def given : Call → List UInt8
  | log severity message (.append _ :: _) => LogSink.line severity message
  | _ => []

/-- What the log's file takes. -/
def appended : Call → List UInt8
  | log _ _ outputs => outputs.flatMap Output.appended
  | _ => []

/-- Whether something is on the log because of a call. -/
def isPut : Call → Bool
  | .log _ _ outputs => outputs.any fun
    | .print .stdout bytes => bytes != []
    | .broken .stdout bytes _ => bytes != []
    | .append bytes => bytes != []
    | .syslog .. => true
    | _ => false
  | _ => false

/-- Whether the log's file does not take all of it. -/
def isComplaint : Call → Bool
  | log _ _ (.append _ :: _ :: _) => true
  | _ => false

theorem of_not_isLog {call : Call} (h : call.isLog = false) :
    call.given = [] ∧ call.appended = [] := by
  cases call with
  | log => cases h
  | _ => exact ⟨rfl, rfl⟩

end Call

theorem Call.not_isBreak {call : Call} (h : call.isLog = false) : call.isBreak = false := by
  cases call with
  | log => cases h
  | _ => rfl

theorem Call.not_isComplaint {call : Call} (h : call.isLog = false) :
    call.isComplaint = false := by
  cases call with
  | log => cases h
  | _ => rfl

/-- What some calls do with what the log's file still has to take, which is `left` and then `left'`:
the file takes what it is given in order, and loses none of it unless there is a complaint. -/
structure Carries (left : List UInt8) (calls : List Call) (left' : List UInt8) : Prop where
  sublist : (calls.flatMap Call.appended ++ left').Sublist (left ++ calls.flatMap Call.given)
  whole (h : ∀ call ∈ calls, call.isComplaint = false) :
    calls.flatMap Call.appended ++ left' = left ++ calls.flatMap Call.given

namespace Carries
variable {left left' left'' : List UInt8} {calls more : List Call}

theorem refl (left : List UInt8) : Carries left [] left := ⟨by simp, fun _ => by simp⟩

theorem trans (H : Carries left calls left') (H' : Carries left' more left'') :
    Carries left (calls ++ more) left'' where
  sublist := by
    simp only [List.flatMap_append, List.append_assoc]
    refine (H'.sublist.append_left _).trans ?_
    simpa only [List.append_assoc] using H.sublist.append_right _
  whole h := by
    obtain ⟨hcalls, hmore⟩ := List.forall_mem_append.1 h
    simp only [List.flatMap_append, List.append_assoc]
    rw [H'.whole hmore, ← List.append_assoc, H.whole hcalls, List.append_assoc]

/-- What is to be taken is not changed by calls that have nothing to do with the log. -/
theorem eq_of_silent (H : Carries left calls left') (h : ∀ call ∈ calls, call.isLog = false) :
    left' = left := by
  have hgiven : calls.flatMap Call.given = [] :=
    List.flatMap_eq_nil_iff.2 fun call hcall => (Call.of_not_isLog (h call hcall)).1
  have happended : calls.flatMap Call.appended = [] :=
    List.flatMap_eq_nil_iff.2 fun call hcall => (Call.of_not_isLog (h call hcall)).2
  have hwhole := H.whole fun call hcall => Call.not_isComplaint (h call hcall)
  simpa [hgiven, happended] using hwhole

/-- Calls that have nothing to do with the log. -/
theorem silent (left : List UInt8) (h : ∀ call ∈ calls, call.isLog = false) :
    Carries left calls left := by
  have hgiven : calls.flatMap Call.given = [] :=
    List.flatMap_eq_nil_iff.2 fun call hcall => (Call.of_not_isLog (h call hcall)).1
  have happended : calls.flatMap Call.appended = [] :=
    List.flatMap_eq_nil_iff.2 fun call hcall => (Call.of_not_isLog (h call hcall)).2
  constructor <;> simp [hgiven, happended]

end Carries

theorem LogSink.Yields.carries {sink : LogSink} {severity : Severity} {message : String}
    {left left' : List UInt8} {outputs : List Output}
    (H : sink.Yields severity message left outputs left') :
    Carries left [.log severity message outputs] left' := by
  have houtput {stream : Stream} {bytes : List UInt8} {output : Output}
      (H : stream.Delivers bytes output) :
      Carries left [.log severity message [output]] left := by
    constructor <;> cases H <;> simp [Call.given, Call.appended, Output.appended]
  cases H with
  | printed H | unreported _ H => exact houtput H
  | reported => constructor <;> simp [Call.given, Call.appended, Output.appended]
  | written => constructor <;> simp [Call.given, Call.appended, Output.appended]
  | kept h H =>
    constructor
    · simpa only [List.flatMap_singleton, Call.given, Call.appended, H.appended_cons] using h
    · simp [Call.isComplaint]

end OnePage
