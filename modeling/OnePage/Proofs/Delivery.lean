import OnePage.Proofs.Effects
import OnePage.Response

/-! # Delivering a reply

All that a call to `Response.send` can do (`Response.Delivers`): which operations it makes, what
comes of them, and how far the reply is afterwards. Header and page come in their order without a
gap (`Delivers.written`), and a reply that is blocked was blocked by its last operation. A call is
a chain of operations that take the reply further (`Response.Advances`) and then one that does not
(`Response.Stops`), also while the file is changed by others (`Response.sendAmid`). -/

namespace OnePage

namespace Operation

/-- The bytes that an operation has put on the socket. -/
def written : Operation → List UInt8
  | .send _ (.ok data) => data
  | .sendfile _ _ (.ok data) => data
  | _ => []

/-- Whether an operation is meant to put bytes on the socket. -/
def isTransfer : Operation → Bool
  | .send .. => true
  | .sendfile .. => true
  | _ => false

/-- Whether the socket had no room for an operation. -/
def isBlocked : Operation → Bool
  | .send _ (.error .EAGAIN) => true
  | .sendfile _ _ (.error .EAGAIN) => true
  | _ => false

end Operation

namespace Talk

/-- Operations in a row, told as one list. -/
theorem done_append {x x' x'' : Exchange} {ops ops' : List Operation}
    (h : x'.done = x.done ++ ops.toArray) (h' : x''.done = x'.done ++ ops'.toArray) :
    x''.done = x.done ++ (ops ++ ops').toArray := by
  rw [h', h]
  simp

theorem send_spec (data : List UInt8) (x : Exchange) :
    ∃ r x', Talk.send data x = (r, x') ∧
      x'.done = x.done ++ #[.send data.length (r.map data.take)] ∧ x'.stats = x.stats ∧
      ∀ n, r = .ok n → n ≤ data.length := by
  refine ⟨_, _, rfl, by simp, rfl, fun n h => ?_⟩
  cases hs : x.pending.send.head? with
  | none => simp_all [taken]
  | some result =>
    cases result with
    | error e => simp [taken, hs] at h
    | ok m =>
      simp only [taken, hs, Except.ok.injEq] at h
      omega

theorem sendfile_spec (content : Content) (offset asked : Nat) (x : Exchange) :
    ∃ r x', Talk.sendfile content offset asked x = (r.map List.length, x') ∧
      x'.done = x.done ++ #[.sendfile offset asked r] ∧ x'.stats = x.stats ∧
      ∀ data, r = .ok data → data = (content.bytes.drop offset).take data.length ∧
        data.length ≤ asked := by
  refine ⟨_, _, rfl, by simp, rfl, fun data h => ?_⟩
  have hread (n : Nat) (hn : n ≤ asked) (hdata : content.read offset n = data) :
      data = (content.bytes.drop offset).take data.length ∧ data.length ≤ asked := by
    rw [Content.read_eq] at hdata
    subst hdata
    constructor
    · rw [List.length_take, List.take_eq_take_iff]
      omega
    · rw [List.length_take]
      omega
  cases hs : x.pending.sendfile.head? with
  | none =>
    simp only [taken, hs, Except.map, Except.ok.injEq] at h
    exact hread asked (Nat.le_refl _) h
  | some result =>
    cases result with
    | error e => simp [taken, hs, Except.map] at h
    | ok m =>
      simp only [taken, hs, Except.map, Except.ok.injEq] at h
      exact hread (min m asked) (Nat.min_le_right ..) h

end Talk

@[simp] theorem Stats.addSent_addSent (stats : Stats) (n m : Nat) :
    (stats.addSent n).addSent m = stats.addSent (n + m) := by
  simp only [addSent, Nat.add_assoc]

namespace Response

/-- How much of the page the next call asks for. -/
def request (r : Response) : Nat := min (r.length - r.sent) chunk

/-- What a call to send on can do while the file has some content: the operations it makes, its
result, and the reply and the totals afterwards. -/
inductive Delivers (content : Content) : Response → Stats → List Operation →
    Except SendError Progress → Response → Stats → Prop
  | complete {r : Response} {stats : Stats} (hh : header.length ≤ r.headerSent)
    (hs : r.length ≤ r.sent) : Delivers content r stats [] (.ok .complete) r stats
  | headerStopped {r : Response} {stats : Stats} {e : Errno} (hh : r.headerSent < header.length) :
    Delivers content r stats [.send (header.length - r.headerSent) (.error e)]
      (if e = .EAGAIN then .ok .blocked else .error (.header e)) r stats
  | headerClosed {r : Response} {stats : Stats} (hh : r.headerSent < header.length) :
    Delivers content r stats [.send (header.length - r.headerSent) (.ok [])]
      (.error .headerClosed) r stats
  | header {r r' : Response} {stats stats' : Stats} {n : Nat} {ops : List Operation}
    {result : Except SendError Progress} (hn : 0 < n) (hle : r.headerSent + n ≤ header.length)
    (H : Delivers content { r with headerSent := r.headerSent + n } (stats.addSent n) ops
      result r' stats') :
    Delivers content r stats
      (.send (header.length - r.headerSent) (.ok ((header.drop r.headerSent).take n)) :: ops)
      result r' stats'
  | tooLarge {r : Response} {stats : Stats} (hh : header.length ≤ r.headerSent)
    (hs : r.sent < r.length) (ho : offsetLimit ≤ r.sent) :
    Delivers content r stats [] (.error .tooLarge) r stats
  | bodyStopped {r : Response} {stats : Stats} {e : Errno} (hh : header.length ≤ r.headerSent)
    (hs : r.sent < r.length) (ho : r.sent < offsetLimit) :
    Delivers content r stats [.sendfile r.sent r.request (.error e)]
      (if e = .EAGAIN then .ok .blocked else .error (.sendfile e)) r stats
  | shrank {r : Response} {stats : Stats} (hh : header.length ≤ r.headerSent)
    (hs : r.sent < r.length) (ho : r.sent < offsetLimit) :
    Delivers content r stats [.sendfile r.sent r.request (.ok [])]
      (.error (.shrank r.sent r.length)) r stats
  | body {r r' : Response} {stats stats' : Stats} {data : List UInt8} {ops : List Operation}
    {result : Except SendError Progress} (hh : header.length ≤ r.headerSent)
    (hs : r.sent < r.length) (ho : r.sent < offsetLimit) (hn : data ≠ [])
    (hdata : data = (content.bytes.drop r.sent).take data.length) (hle : data.length ≤ r.request)
    (H : Delivers content { r with sent := r.sent + data.length } (stats.addSent data.length) ops
      result r' stats') :
    Delivers content r stats (.sendfile r.sent r.request (.ok data) :: ops) result r' stats'

/-! ## Call by call

The file may be another one at each read, so its content is a function of the offset. What
`send` does is the case in which this function is constant. -/

/-- `sendBody` while others change the file: its content is `page o` when it is read from `o`. -/
def sendBodyAmid (page : Nat → Content) (r : Response) :
    Nat → Talk (Except SendError Progress × Response)
  | 0 => return (.ok .complete, r)
  | steps + 1 => do
    if r.sent < r.length then
      if offsetLimit ≤ r.sent then return (.error .tooLarge, r)
      match ← Talk.sendfile (page r.sent) r.sent (min (r.length - r.sent) chunk) with
      | .ok 0 => return (.error (.shrank r.sent r.length), r)
      | .error .EAGAIN => return (.ok .blocked, r)
      | .error e => return (.error (.sendfile e), r)
      | .ok n =>
        Talk.count (·.addSent n)
        sendBodyAmid page { r with sent := r.sent + n } steps
    else return (.ok .complete, r)

/-- What a reply's file holds when it is read from an offset. -/
def page (r : Response) (files : Nat → Files) (offset : Nat) : Content :=
  ((files offset).content? r.file).getD .empty

/-- `send` while others change the files: they are `files o` when the page is read from `o`. -/
def sendAmid (files : Nat → Files) (r : Response) :
    Talk (Except SendError Progress × Response) := do
  match ← r.sendHeader (header.length - r.headerSent) with
  | (.ok .complete, r) => r.sendBodyAmid (r.page files) (r.length - r.sent)
  | stopped => return stopped

theorem sendBodyAmid_const (content : Content) (r : Response) (steps : Nat) :
    r.sendBodyAmid (fun _ => content) steps = r.sendBody content steps := by
  induction steps generalizing r with
  | zero => rfl
  | succ steps ih =>
    simp only [sendBodyAmid, ih]
    rfl

theorem sendAmid_const (files : Files) (r : Response) :
    r.sendAmid (fun _ => files) = r.send files := by
  unfold sendAmid send
  congr 1
  funext stopped
  rcases stopped with ⟨_ | _ | _, r⟩
  · rfl
  · exact sendBodyAmid_const ..
  · rfl

/-- An operation that takes a reply further. -/
inductive Advances (page : Nat → Content) (r : Response) : Operation → Response → Prop
  | header {n : Nat} (hn : 0 < n) (hle : r.headerSent + n ≤ header.length) :
    Advances page r
      (.send (header.length - r.headerSent) (.ok ((header.drop r.headerSent).take n)))
      { r with headerSent := r.headerSent + n }
  | body {data : List UInt8} (hh : header.length ≤ r.headerSent) (hs : r.sent < r.length)
    (ho : r.sent < offsetLimit) (hn : data ≠ [])
    (hdata : data = ((page r.sent).bytes.drop r.sent).take data.length)
    (hle : data.length ≤ r.request) :
    Advances page r (.sendfile r.sent r.request (.ok data)) { r with sent := r.sent + data.length }

/-- How a call to send on ends: the operation that stops it, if there is one, and its result. -/
inductive Stops (r : Response) : List Operation → Except SendError Progress → Prop
  | complete (hh : header.length ≤ r.headerSent) (hs : r.length ≤ r.sent) :
    Stops r [] (.ok .complete)
  | headerStopped {e : Errno} (hh : r.headerSent < header.length) :
    Stops r [.send (header.length - r.headerSent) (.error e)]
      (if e = .EAGAIN then .ok .blocked else .error (.header e))
  | headerClosed (hh : r.headerSent < header.length) :
    Stops r [.send (header.length - r.headerSent) (.ok [])] (.error .headerClosed)
  | tooLarge (hh : header.length ≤ r.headerSent) (hs : r.sent < r.length)
    (ho : offsetLimit ≤ r.sent) : Stops r [] (.error .tooLarge)
  | bodyStopped {e : Errno} (hh : header.length ≤ r.headerSent) (hs : r.sent < r.length)
    (ho : r.sent < offsetLimit) :
    Stops r [.sendfile r.sent r.request (.error e)]
      (if e = .EAGAIN then .ok .blocked else .error (.sendfile e))
  | shrank (hh : header.length ≤ r.headerSent) (hs : r.sent < r.length)
    (ho : r.sent < offsetLimit) :
    Stops r [.sendfile r.sent r.request (.ok [])] (.error (.shrank r.sent r.length))

/-- Operations that take a reply further, one after another. -/
inductive Proceeds (page : Nat → Content) : Response → List Operation → Response → Prop
  | nil {r : Response} : Proceeds page r [] r
  | cons {r r' r'' : Response} {op : Operation} {ops : List Operation} (h : Advances page r op r')
    (H : Proceeds page r' ops r'') : Proceeds page r (op :: ops) r''

/-- A call to send on, from `x` to `x'`: some operations take the reply further, then it
stops. The totals have grown by what is out since, whatever the result is. -/
def Transmits (page : Nat → Content) (r : Response) (x : Exchange)
    (result : Except SendError Progress) (r' : Response) (x' : Exchange) : Prop :=
  ∃ ops last, x'.done = x.done ++ (ops ++ last).toArray ∧ Proceeds page r ops r' ∧
    Stops r' last result ∧ x'.stats = x.stats.addSent (ops.flatMap Operation.written).length

section
variable {page : Nat → Content} {r r' r'' : Response} {op : Operation} {x x' x'' : Exchange}
variable {last : List Operation} {result : Except SendError Progress}

theorem Transmits.stop (hdone : x'.done = x.done ++ last.toArray) (h : Stops r last result)
    (hstats : x'.stats = x.stats) : Transmits page r x result r x' :=
  ⟨[], last, hdone, .nil, h, hstats⟩

theorem Transmits.advance {n : Nat} (hdone : x'.done = x.done ++ #[op])
    (hstats : x'.stats = x.stats) (h : Advances page r op r') (hn : op.written.length = n)
    (H : Transmits page r' { x' with stats := x'.stats.addSent n } result r'' x'') :
    Transmits page r x result r'' x'' := by
  obtain ⟨ops, last, hdone', Hp, Hs, hstats'⟩ := H
  have hdone'' : x''.done = x.done ++ ([op] ++ (ops ++ last)).toArray :=
    Talk.done_append hdone hdone'
  refine ⟨op :: ops, last, hdone'', .cons h Hp, Hs, ?_⟩
  rw [hstats', List.flatMap_cons, List.length_append, hn, hstats, Stats.addSent_addSent]

/-- As many bytes of the header go out as the reply is taken further by. -/
theorem length_headerPart {sent n : Nat} (hle : sent + n ≤ header.length) :
    ((header.drop sent).take n).length = n := by
  rw [List.length_take, List.length_drop]
  omega

end

theorem sendBodyAmid_transmits (page : Nat → Content) {r : Response} {steps : Nat}
    (hh : header.length ≤ r.headerSent) (hsteps : r.length - r.sent ≤ steps) (x : Exchange) :
    ∃ result r' x', r.sendBodyAmid page steps x = ((result, r'), x') ∧
      Transmits page r x result r' x' := by
  induction steps generalizing r x with
  | zero => exact ⟨_, r, x, rfl, .stop (by simp) (.complete hh (by omega)) rfl⟩
  | succ steps ih =>
    by_cases hs : r.sent < r.length
    case neg =>
      exact ⟨_, r, x, by simp [sendBodyAmid, hs], .stop (by simp) (.complete hh (by omega)) rfl⟩
    by_cases ho : r.sent < offsetLimit
    case neg =>
      have ho := Nat.le_of_not_lt ho
      exact ⟨_, r, x, by simp [sendBodyAmid, hs, ho], .stop (by simp) (.tooLarge hh hs ho) rfl⟩
    obtain ⟨result, x', hx, hdone, hstats, hdata⟩ :=
      Talk.sendfile_spec (page r.sent) r.sent r.request x
    rw [request] at hx
    have ho' := Nat.not_le_of_lt ho
    rcases result with e | data
    · refine ⟨if e = .EAGAIN then .ok .blocked else .error (.sendfile e), r, x', ?_,
        .stop hdone (.bodyStopped hh hs ho) hstats⟩
      simp only [sendBodyAmid, hs, ho', if_true, if_false, StateM.bind_apply, hx, Except.map]
      cases e <;> rfl
    obtain ⟨hdata, hle⟩ := hdata data rfl
    cases data with
    | nil =>
      exact ⟨.error (.shrank r.sent r.length), r, x',
        by simp [sendBodyAmid, hs, ho', hx, Except.map], .stop hdone (.shrank hh hs ho) hstats⟩
    | cons b bs =>
      obtain ⟨result, r', x'', hx', H⟩ :=
        ih (r := { r with sent := r.sent + (b :: bs).length }) hh (by simp; omega)
          { x' with stats := x'.stats.addSent (b :: bs).length }
      refine ⟨result, r', x'', ?_, .advance hdone hstats
        (.body hh hs ho (List.cons_ne_nil b bs) hdata hle) rfl H⟩
      simp only [sendBodyAmid, hs, ho', if_true, if_false, StateM.bind_apply, hx, Except.map]
      exact hx'

/-- Sending the header and then, if all of it is out, the page. -/
theorem sendHeader_transmits (files : Nat → Files) {r : Response} {steps : Nat}
    (hsteps : header.length - r.headerSent ≤ steps) (x : Exchange) :
    ∃ result r' x', (do
      match ← r.sendHeader steps with
      | (.ok .complete, r) => r.sendBodyAmid (r.page files) (r.length - r.sent)
      | stopped => return stopped : Talk _) x = ((result, r'), x') ∧
      Transmits (r.page files) r x result r' x' := by
  induction steps generalizing r x with
  | zero => exact sendBodyAmid_transmits _ (by omega) (Nat.le_refl _) x
  | succ steps ih =>
    by_cases hh : r.headerSent < header.length
    case neg =>
      simp only [sendHeader, hh, if_false]
      exact sendBodyAmid_transmits _ (by omega) (Nat.le_refl _) x
    obtain ⟨result, x', hx, hdone, hstats, hdata⟩ :=
      Talk.send_spec (header.drop r.headerSent) x
    rw [List.length_drop] at hdone hdata
    rcases result with e | n
    · refine ⟨if e = .EAGAIN then .ok .blocked else .error (.header e), r, x', ?_,
        .stop hdone (.headerStopped hh) hstats⟩
      simp only [sendHeader, hh, if_true, StateM.bind_apply, hx]
      cases e <;> rfl
    have hle := hdata n rfl
    cases n with
    | zero =>
      exact ⟨.error .headerClosed, r, x', by simp [sendHeader, hh, hx],
        .stop hdone (.headerClosed hh) hstats⟩
    | succ n =>
      obtain ⟨result, r', x'', hx', H⟩ :=
        ih (r := { r with headerSent := r.headerSent + (n + 1) }) (by simp; omega)
          { x' with stats := x'.stats.addSent (n + 1) }
      have hle : r.headerSent + (n + 1) ≤ header.length := by omega
      refine ⟨result, r', x'', ?_, .advance hdone hstats
        (.header (Nat.succ_pos n) hle) (length_headerPart hle) H⟩
      simp only [sendHeader, hh, if_true, StateM.bind_apply, hx]
      exact hx'

theorem sendAmid_transmits (files : Nat → Files) (r : Response) (x : Exchange) :
    ∃ result r' x', r.sendAmid files x = ((result, r'), x') ∧
      Transmits (r.page files) r x result r' x' :=
  sendHeader_transmits files (Nat.le_refl _) x

/-- Where the file does not change, the totals can be told with the operations. -/
theorem Proceeds.delivers {content : Content} {r r' : Response} {ops last : List Operation}
    {result : Except SendError Progress} (Hp : Proceeds (fun _ => content) r ops r')
    (Hs : Stops r' last result) (stats : Stats) :
    Delivers content r stats (ops ++ last) result r'
      (stats.addSent (ops.flatMap Operation.written).length) := by
  induction Hp generalizing stats with
  | nil =>
    cases Hs with
    | complete hh hs => exact .complete hh hs
    | headerStopped hh => exact .headerStopped hh
    | headerClosed hh => exact .headerClosed hh
    | tooLarge hh hs ho => exact .tooLarge hh hs ho
    | bodyStopped hh hs ho => exact .bodyStopped hh hs ho
    | shrank hh hs ho => exact .shrank hh hs ho
  | cons h _ ih =>
    have H (n : Nat) := ih Hs (stats.addSent n)
    simp only [Stats.addSent_addSent] at H
    rw [List.flatMap_cons, List.length_append]
    cases h with
    | header hn hle =>
      rw [Operation.written, length_headerPart hle]
      exact .header hn hle (H _)
    | body hh hs ho hn hdata hle => exact .body hh hs ho hn hdata hle (H _)

theorem send_delivers (files : Files) (r : Response) (x : Exchange) :
    ∃ ops result r' x', r.send files x = ((result, r'), x') ∧
      x'.done = x.done ++ ops.toArray ∧
      Delivers ((files.content? r.file).getD .empty) r x.stats ops result r' x'.stats := by
  obtain ⟨result, r', x', hx, ops, last, hdone, Hp, Hs, hstats⟩ :=
    r.sendAmid_transmits (fun _ => files) x
  rw [sendAmid_const] at hx
  exact ⟨_, result, r', x', hx, hdone, hstats ▸ Hp.delivers Hs x.stats⟩

/-- No more is out than there is, and nothing of the page before all of the header. -/
structure Regular (r : Response) : Prop where
  header_le : r.headerSent ≤ header.length
  sent_le : r.sent ≤ r.length
  header_first : 0 < r.sent → r.headerSent = header.length

/-- Whether all of a reply is out. -/
def IsComplete (r : Response) : Prop := header.length ≤ r.headerSent ∧ r.length ≤ r.sent

/-- What a reply has put on the socket when the page is `content`. -/
def sentBytes (r : Response) (content : Content) : List UInt8 :=
  header.take r.headerSent ++ content.bytes.take r.sent

theorem Regular.addHeader {r : Response} {n : Nat} (hr : r.Regular) (hn : 0 < n)
    (hle : r.headerSent + n ≤ header.length) :
    r.sent = 0 ∧ ({ r with headerSent := r.headerSent + n } : Response).Regular := by
  have hsent : r.sent = 0 := Nat.eq_zero_of_not_pos fun h => by
    have := hr.header_first h
    omega
  exact ⟨hsent, hle, hr.sent_le, fun h => absurd h (by simp [hsent])⟩

theorem Regular.addBody {r : Response} {n : Nat} (hr : r.Regular)
    (hh : header.length ≤ r.headerSent) (hs : r.sent < r.length) (hle : n ≤ r.request) :
    ({ r with sent := r.sent + n } : Response).Regular := by
  have : n ≤ r.length - r.sent := Nat.le_trans hle (Nat.min_le_left ..)
  exact ⟨hr.header_le, by simp only; omega, fun _ => Nat.le_antisymm hr.header_le hh⟩

/-- What is out is the beginning of the header and the page. -/
theorem Regular.sentBytes_prefix {r : Response} (hr : r.Regular) (content : Content) :
    r.sentBytes content <+: header ++ content.bytes := by
  cases hs : r.sent with
  | zero =>
    rw [sentBytes, hs, List.take_zero, List.append_nil]
    exact (List.take_prefix ..).trans (List.prefix_append ..)
  | succ n =>
    have hh : r.headerSent = header.length := hr.header_first (hs ▸ Nat.succ_pos n)
    rw [sentBytes, hh, List.take_length]
    exact (List.prefix_append_right_inj header).2 (List.take_prefix ..)

theorem sentBytes_eq_iff {r : Response} {content : Content} (h : content.size = r.length) :
    r.sentBytes content = header ++ content.bytes ↔ r.IsComplete := by
  constructor
  · intro he
    have hlength := congrArg List.length he
    simp only [sentBytes, List.length_append, List.length_take, Content.length_bytes] at hlength
    constructor <;> omega
  · rintro ⟨hh, hs⟩
    rw [sentBytes, List.take_of_length_le hh, List.take_of_length_le (by simp [h, hs])]

/-- A reply that is begun is for the page as it is then, and nothing of it is out. -/
theorem ofPath_spec {files : Files} {path : String} {r : Response}
    (h : ofPath files path = .ok r) : files.find path = .ok r.file ∧
      (∃ content, files.content? r.file = some content ∧ content.size = r.length) ∧
      r.headerSent = 0 ∧ r.sent = 0 := by
  unfold ofPath at h
  split at h <;> try contradiction
  rename_i hfind
  split at h <;> try contradiction
  rename_i content hcontent
  cases h
  exact ⟨hfind, ⟨content, hcontent, rfl⟩, rfl, rfl⟩

theorem ofPath_regular {files : Files} {path : String} {r : Response}
    (h : ofPath files path = .ok r) : r.Regular := by
  obtain ⟨-, -, hh, hs⟩ := ofPath_spec h
  exact ⟨hh ▸ Nat.zero_le _, hs ▸ Nat.zero_le _, fun h => absurd hs (Nat.ne_of_gt h)⟩

namespace Delivers
variable {content : Content} {r r' : Response} {stats stats' : Stats} {ops : List Operation}
variable {result : Except SendError Progress}

theorem file (H : Delivers content r stats ops result r' stats') : r'.file = r.file := by
  induction H with
  | header _ _ _ ih | body _ _ _ _ _ _ _ ih => exact ih
  | _ => rfl

theorem length (H : Delivers content r stats ops result r' stats') : r'.length = r.length := by
  induction H with
  | header _ _ _ ih | body _ _ _ _ _ _ _ ih => exact ih
  | _ => rfl

theorem regular (H : Delivers content r stats ops result r' stats') (hr : r.Regular) :
    r'.Regular := by
  induction H with
  | header hn hle _ ih => exact ih (hr.addHeader hn hle).2
  | body hh hs _ _ _ hle _ ih => exact ih (hr.addBody hh hs hle)
  | _ => exact hr

theorem isTransfer (H : Delivers content r stats ops result r' stats') :
    ∀ op ∈ ops, op.isTransfer := by
  induction H with
  | header _ _ _ ih | body _ _ _ _ _ _ _ ih => exact List.forall_mem_cons.2 ⟨rfl, ih⟩
  | _ => simp [Operation.isTransfer]

/-- What the operations write continues what was out before, up to what is out afterwards. -/
theorem written (H : Delivers content r stats ops result r' stats') (hr : r.Regular) :
    r.sentBytes content ++ ops.flatMap Operation.written = r'.sentBytes content := by
  induction H with
  | header hn hle _ ih =>
    obtain ⟨hsent, hr'⟩ := hr.addHeader hn hle
    rw [← ih hr']
    simp only [sentBytes, hsent, List.take_zero, List.append_nil, List.flatMap_cons,
      Operation.written, List.take_add, List.append_assoc]
  | body hh hs _ _ hdata hle _ ih =>
    rw [← ih (hr.addBody hh hs hle)]
    simp only [sentBytes, List.flatMap_cons, Operation.written, List.take_add, List.append_assoc]
    rw [← hdata]
  | _ => simp [Operation.written]

theorem complete_iff (H : Delivers content r stats ops result r' stats') :
    result = .ok .complete ↔ r'.IsComplete := by
  induction H with
  | header _ _ _ ih | body _ _ _ _ _ _ _ ih => exact ih
  | complete hh hs => exact iff_of_true rfl ⟨hh, hs⟩
  | headerStopped hh =>
    refine iff_of_false ?_ fun h => Nat.not_le_of_lt hh h.1
    split <;> simp
  | headerClosed hh => exact iff_of_false (by simp) fun h => Nat.not_le_of_lt hh h.1
  | bodyStopped _ hs =>
    refine iff_of_false ?_ fun h => Nat.not_le_of_lt hs h.2
    split <;> simp
  | tooLarge _ hs | shrank _ hs => exact iff_of_false (by simp) fun h => Nat.not_le_of_lt hs h.2

/-- A reply that waits for room waits because its last operation found none. -/
theorem blocked (H : Delivers content r stats ops result r' stats') (h : result = .ok .blocked) :
    ∃ before last, ops = before ++ [last] ∧ last.isBlocked := by
  induction H with
  | header _ _ _ ih | body _ _ _ _ _ _ _ ih =>
    obtain ⟨before, last, rfl, hlast⟩ := ih h
    exact ⟨_ :: before, last, rfl, hlast⟩
  | @headerStopped _ _ e | @bodyStopped _ _ e =>
    refine ⟨[], _, rfl, ?_⟩
    split at h
    · rename_i he
      rw [he]
      rfl
    · contradiction
  | _ => cases h

end Delivers

end Response

end OnePage
