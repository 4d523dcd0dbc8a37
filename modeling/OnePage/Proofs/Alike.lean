import Mathlib.Data.List.Forall2
import OnePage.Proofs.Conversations
import OnePage.Proofs.Dependence
import OnePage.Proofs.Unforced

/-! # Runs that receive different bytes

Two states of a system are alike if they differ in nothing but what peers have sent: in the bytes of
receipts to come, in those that are held of requests, in how many there have been, and in the file
that the log is written to; the clocks, and the order in which a table is walked through, may differ
as well. This is what the relations `Alike` say, one for each kind of thing that a state is made of.
Whatever does not look at these takes states that are alike to states that are alike
(`StateM.Agree`). -/

namespace OnePage

/-! ## Two runs of a step -/

/-- Whether two steps take states that go together to states that go together, with results that do
so as well. -/
def StateM.Agree {σ α β : Type} (I : σ → σ → Prop) (R : α → β → Prop) (f : StateM σ α)
    (g : StateM σ β) : Prop :=
  ∀ s s', I s s' → R (f s).1 (g s').1 ∧ I (f s).2 (g s').2

namespace StateM.Agree
variable {σ α β γ δ : Type} {I : σ → σ → Prop} {R : α → β → Prop} {S : γ → δ → Prop}
variable {x : StateM σ α} {y : StateM σ β}

theorem pure {a : α} {b : β} (h : R a b) : Agree I R (Pure.pure a) (Pure.pure b) :=
  fun _ _ H => ⟨h, H⟩

theorem bind {f : α → StateM σ γ} {g : β → StateM σ δ} (H : Agree I R x y)
    (H' : ∀ a b, R a b → Agree I S (f a) (g b)) : Agree I S (x >>= f) (y >>= g) := by
  intro s s' h
  obtain ⟨hr, h'⟩ := H s s' h
  exact H' _ _ hr _ _ h'

theorem ite {p : Prop} [Decidable p] {x' : StateM σ α} {y' : StateM σ β} (H : Agree I R x y)
    (H' : Agree I R x' y') : Agree I R (if p then x else x') (if p then y else y') := by
  split
  · exact H
  · exact H'

theorem modify {f g : σ → σ} (h : ∀ s s', I s s' → I (f s) (g s')) :
    Agree I Eq (modify f : StateM σ PUnit) (modify g) :=
  fun s s' H => ⟨rfl, h s s' H⟩

theorem get : Agree I I (MonadState.get : StateM σ σ) MonadState.get := fun _ _ H => ⟨H, H⟩

end StateM.Agree

/-! ## Tables -/

namespace Table
variable {α : Type} {R : Nat → α → α → Prop} {k : Nat} {v v' : α}

/-- Whether two entries have one key, and values that go together under it. -/
def Paired (R : Nat → α → α → Prop) (e e' : Nat × α) : Prop := e.1 = e'.1 ∧ R e.1 e.2 e'.2

/-- Whether two tables have the same keys, and values that go together under each. -/
def Rel (R : Nat → α → α → Prop) (t t' : Table α) : Prop :=
  List.Forall₂ (Paired R) t.entries t'.entries

theorem insert_eq_self {t : Table α} (h : t.get? k = some v) : t.insert k v = t :=
  Table.ext fun j => by
    rw [get?_insert]
    split
    · rename_i hj
      rw [hj, h]
    · rfl

section
variable {l l' : List (Nat × α)}

theorem find_paired (H : List.Forall₂ (Paired R) l l') (k : Nat) :
    Option.Rel (R k) (find k l) (find k l') := by
  induction H with
  | nil => exact .none
  | @cons e e' _ _ he _ ih =>
    obtain ⟨j, v⟩ := e
    obtain ⟨_, v'⟩ := e'
    obtain ⟨rfl, hv⟩ := he
    simp only [find]
    split
    · rename_i hj
      exact .some (hj ▸ hv)
    · exact ih

theorem put_paired (H : List.Forall₂ (Paired R) l l') (h : R k v v') :
    List.Forall₂ (Paired R) (put k v l) (put k v' l') := by
  induction H with
  | nil => exact .cons ⟨rfl, h⟩ .nil
  | @cons e e' _ _ he hs ih =>
    obtain ⟨j, w⟩ := e
    obtain ⟨_, w'⟩ := e'
    obtain ⟨rfl, hw⟩ := he
    simp only [put]
    split
    · exact .cons ⟨rfl, hw⟩ ih
    · split
      · exact .cons ⟨rfl, h⟩ hs
      · exact .cons ⟨rfl, h⟩ (.cons ⟨rfl, hw⟩ hs)

theorem remove_paired (H : List.Forall₂ (Paired R) l l') (k : Nat) :
    List.Forall₂ (Paired R) (remove k l) (remove k l') := by
  induction H with
  | nil => exact .nil
  | @cons e e' _ _ he hs ih =>
    obtain ⟨j, w⟩ := e
    obtain ⟨_, w'⟩ := e'
    obtain ⟨rfl, hw⟩ := he
    simp only [remove]
    split
    · exact hs
    · exact .cons ⟨rfl, hw⟩ ih

end

namespace Rel
variable {t t' : Table α}

theorem refl (h : ∀ k v, t.get? k = some v → R k v v) : t.Rel R t :=
  List.forall₂_same.2 fun e he => ⟨rfl, h e.1 e.2 (get?_eq_some_iff.2 he)⟩

theorem symm (H : t.Rel R t') (h : ∀ k v v', R k v v' → R k v' v) : t'.Rel R t :=
  H.flip.imp fun _ _ ⟨hk, hv⟩ => ⟨hk.symm, hk ▸ h _ _ _ hv⟩

theorem trans {t'' : Table α} (H : t.Rel R t') (H' : t'.Rel R t'')
    (h : ∀ k v v' v'', R k v v' → R k v' v'' → R k v v'') : t.Rel R t'' := by
  unfold Table.Rel at *
  generalize t.entries = entries at H ⊢
  generalize t'.entries = entries' at H H'
  generalize t''.entries = entries'' at H' ⊢
  induction H generalizing entries'' with
  | nil => exact H'
  | cons he _ ih =>
    cases H' with
    | cons he' Hs' =>
      exact .cons ⟨he.1.trans he'.1, h _ _ _ _ he.2 (he.1 ▸ he'.2)⟩ (ih _ Hs')

theorem keys (H : t.Rel R t') : t'.keys = t.keys := by
  have heq : List.Forall₂ (· = ·) t.keys t'.keys :=
    List.forall₂_map_left_iff.2 (List.forall₂_map_right_iff.2 (H.imp fun _ _ he => he.1))
  rw [List.forall₂_eq_eq_eq] at heq
  exact heq.symm

theorem isEmpty (H : t.Rel R t') : t'.isEmpty = t.isEmpty := by
  have h := congrArg List.isEmpty H.keys
  simpa [Table.keys, Table.isEmpty] using h

theorem firstFree (H : t.Rel R t') (floor : Nat) : t'.firstFree floor = t.firstFree floor := by
  rw [Table.firstFree, H.keys, Table.firstFree]

/-- There is an entry on both sides, or on none. -/
theorem entry (H : t.Rel R t') (k : Nat) :
    t.get? k = none ∧ t'.get? k = none ∨
      ∃ v v', t.get? k = some v ∧ t'.get? k = some v' ∧ R k v v' := by
  have h := find_paired H k
  unfold Table.get?
  generalize find k t.entries = entry at h
  generalize find k t'.entries = entry' at h
  cases h with
  | none => exact .inl ⟨rfl, rfl⟩
  | some hv => exact .inr ⟨_, _, rfl, rfl, hv⟩

theorem getD (H : t.Rel R t') (h : R k v v) : R k ((t.get? k).getD v) ((t'.get? k).getD v) := by
  rcases H.entry k with ⟨he, he'⟩ | ⟨w, w', he, he', hw⟩
  · rw [he, he']
    exact h
  · rw [he, he']
    exact hw

theorem insert (H : t.Rel R t') (h : R k v v') : (t.insert k v).Rel R (t'.insert k v') :=
  put_paired H h

theorem erase (H : t.Rel R t') (k : Nat) : (t.erase k).Rel R (t'.erase k) := remove_paired H k

theorem foldl_erase (H : t.Rel R t') (keys : List Nat) :
    (keys.foldl Table.erase t).Rel R (keys.foldl Table.erase t') := by
  induction keys generalizing t t' with
  | nil => exact H
  | cons k keys ih => exact ih (H.erase k)

/-- A value is put in the place of one that goes with the same on the other side. -/
theorem replace (H : t.Rel R t') (hk : t'.get? k = some v') (h : R k v v') :
    (t.insert k v).Rel R t' :=
  insert_eq_self hk ▸ H.insert h

end Rel

end Table

/-! ## Files -/

/-- Whether two nodes are the same, or files whose content is hidden. -/
inductive Node.Alike (hidden : Prop) : Node → Node → Prop
  | same (node : Node) : Alike hidden node node
  | content (h : hidden) (content content' : Content) :
    Alike hidden (.regular content) (.regular content')

theorem Node.Alike.trans {hidden : Prop} {node node' node'' : Node} (H : node.Alike hidden node')
    (H' : node'.Alike hidden node'') : node.Alike hidden node'' := by
  cases H with
  | same => exact H'
  | content h =>
    cases H' with
    | same => exact .content h _ _
    | content => exact .content h _ _

/-- Whether files are the same but for the content of those that are hidden. -/
inductive Files.Alike (hidden : FileId → Prop) (files : Files) : Files → Prop
  | mk {nodes : Table Node} (h : files.nodes.Rel (fun id => Node.Alike (hidden id)) nodes) :
    Alike hidden files { files with nodes := nodes }

namespace Files.Alike
variable {hidden : FileId → Prop} {files files' : Files} {id : FileId}

theorem refl (files : Files) : files.Alike hidden files := .mk (.refl fun _ node _ => .same node)

theorem symm (H : files.Alike hidden files') : files'.Alike hidden files := by
  cases H with
  | mk h =>
    refine .mk (h.symm fun id node node' hn => ?_)
    cases hn with
    | same => exact .same node
    | content hid content content' => exact .content hid content' content

theorem trans {files'' : Files} (H : files.Alike hidden files') (H' : files'.Alike hidden files'') :
    files.Alike hidden files'' := by
  cases H with
  | mk h =>
    cases H' with
    | mk h' => exact .mk (h.trans h' fun _ _ _ _ => Node.Alike.trans)

theorem idOf? (H : files.Alike hidden files') (place : Place) :
    files'.idOf? place = files.idOf? place := by
  cases H
  rfl

/-- A node is the same on both sides, unless it is a file that is hidden. -/
theorem node (H : files.Alike hidden files') (id : FileId) :
    files'.nodes.get? id = files.nodes.get? id ∨
      hidden id ∧ ∃ content content', files.nodes.get? id = some (.regular content) ∧
        files'.nodes.get? id = some (.regular content') := by
  obtain ⟨h⟩ := H
  rcases h.entry id with ⟨hn, hn'⟩ | ⟨node, node', hn, hn', H⟩
  · exact .inl (hn'.trans hn.symm)
  · cases H with
    | same => exact .inl (hn'.trans hn.symm)
    | content hid => exact .inr ⟨hid, _, _, hn, hn'⟩

theorem isDirectory (H : files.Alike hidden files') (place : Place) :
    files'.isDirectory place = files.isDirectory place := by
  simp only [Files.isDirectory, nodeAt?, H.idOf?]
  cases files.idOf? place with
  | none => rfl
  | some id =>
    rcases H.node id with h | ⟨-, _, _, h, h'⟩
    · simp only [Option.bind_some, h]
    · simp only [Option.bind_some, h, h']

theorem find (H : files.Alike hidden files') (path : String) :
    files'.find path = files.find path := by
  have hplaces : files'.places = files.places := by
    cases H
    rfl
  exact LogSink.find_congr hplaces H.isDirectory path

theorem content? (H : files.Alike hidden files') (id : FileId) :
    files'.content? id = files.content? id ∨
      hidden id ∧ ∃ content content', files.content? id = some content ∧
        files'.content? id = some content' := by
  rcases H.node id with h | ⟨hid, content, content', h, h'⟩
  · exact .inl (by simp only [Files.content?, h])
  · exact .inr ⟨hid, content, content', by simp only [Files.content?, h],
      by simp only [Files.content?, h']⟩

theorem content?_eq (H : files.Alike hidden files') (h : ¬ hidden id) :
    files'.content? id = files.content? id := (H.content? id).resolve_right fun hid => h hid.1

/-- The same page is opened, unless it is hidden. -/
theorem ofPath (H : files.Alike hidden files') (page : String) :
    Response.ofPath files' page = Response.ofPath files page ∨
      ∃ r r', Response.ofPath files page = .ok r ∧ Response.ofPath files' page = .ok r' ∧
        hidden r.file := by
  unfold Response.ofPath
  rw [H.find]
  cases files.find page with
  | error e => exact .inl rfl
  | ok id =>
    rcases H.content? id with h | ⟨hid, content, content', h, h'⟩
    · exact .inl (by simp only [h])
    · exact .inr ⟨_, _, by simp only [h]; rfl, by simp only [h']; rfl, hid⟩

/-! Files stay alike when they are changed in the same way. -/

theorem insert (H : files.Alike hidden files') (id : FileId) (node : Node) :
    { files with nodes := files.nodes.insert id node }.Alike hidden
      { files' with nodes := files'.nodes.insert id node } := by
  cases H with
  | mk h => exact .mk (h.insert (.same node))

theorem addNode (H : files.Alike hidden files') (place : Place) (node : Node) :
    (files.addNode place node).Alike hidden (files'.addNode place node) := by
  cases H with
  | mk h =>
    simp only [Files.addNode, h.firstFree]
    exact .mk (h.insert (.same node))

theorem ensureDirectory (H : files.Alike hidden files') (place : Place) :
    (files.ensureDirectory place).Alike hidden (files'.ensureDirectory place) := by
  simp only [Files.ensureDirectory, H.idOf?]
  split
  · exact H
  · exact H.addNode place .directory

theorem ensureDirectories (H : files.Alike hidden files') (place : Place) :
    (files.ensureDirectories place).Alike hidden (files'.ensureDirectories place) := by
  unfold Files.ensureDirectories
  generalize List.range (place.length + 1) = depths
  induction depths generalizing files files' with
  | nil => exact H
  | cons n depths ih => exact ih (H.ensureDirectory _)

theorem put (H : files.Alike hidden files') (place : Place) (node : Node) :
    (files.put place node).Alike hidden (files'.put place node) := by
  have H' := H.ensureDirectories place.dropLast
  simp only [Files.put, H'.idOf?]
  split
  · exact H'.insert _ node
  · exact H'.addNode place node

theorem resize (H : files.Alike hidden files') (path : String) (size : Nat) :
    (files.change (.resize path size)).Alike hidden (files'.change (.resize path size)) := by
  simp only [change, H.idOf?]
  cases files.idOf? (placeOf path) with
  | none => exact H
  | some id =>
    rcases H.content? id with h | ⟨hid, content, content', h, h'⟩
    · simp only [h]
      cases files.content? id with
      | none => exact H
      | some content => exact H.insert id _
    · simp only [h, h']
      obtain ⟨hnodes⟩ := H
      exact .mk (hnodes.insert (.content hid _ _))

theorem changes (H : files.Alike hidden files') (list : List FileChange) :
    (files.changes list).Alike hidden (files'.changes list) := by
  have hchange (change : FileChange) {files files' : Files} (H : files.Alike hidden files') :
      (files.change change).Alike hidden (files'.change change) := by
    cases change with
    | write path bytes => exact H.put _ _
    | makeDirectory path => exact H.ensureDirectories _
    | makeFifo path => exact H.put _ _
    | remove path =>
      cases H with
      | mk h => exact .mk h
    | resize path size => exact H.resize path size
  unfold Files.changes
  induction list generalizing files files' with
  | nil => exact H
  | cons change list ih => exact ih (hchange change H)

/-- What is written to a hidden file makes no difference. -/
theorem append (H : files.Alike hidden files') (hid : hidden id) (bytes : List UInt8) :
    (files.append id bytes).Alike hidden files' := by
  have hnode := H.node id
  cases H with
  | @mk nodes hnodes =>
    unfold Files.append
    split
    · rename_i content hget
      obtain ⟨content', hget'⟩ : ∃ content', nodes.get? id = some (.regular content') := by
        rcases hnode with h | ⟨-, _, content', -, h⟩
        · exact ⟨content, h.trans hget⟩
        · exact ⟨content', h⟩
      exact .mk (hnodes.replace hget' (.content hid _ _))
    · exact .mk hnodes

end Files.Alike

/-! ## Exchanges -/

/-- What comes of receiving. -/
abbrev Receipt := Except Errno (List UInt8)

/-- Whether two receipts are the same, or both bring something. -/
inductive Receipt.Alike : Receipt → Receipt → Prop
  | same (receipt : Receipt) : Alike receipt receipt
  | data {data data' : List UInt8} (h : data ≠ []) (h' : data' ≠ []) : Alike (.ok data) (.ok data')

/-- Whether two operations are the same, but for how much is asked for and comes of receiving. -/
inductive Operation.Alike : Operation → Operation → Prop
  | same (op : Operation) : Alike op op
  | recv (room room' : Nat) {receipt receipt' : Receipt} (h : receipt.Alike receipt') :
    Alike (.recv room receipt) (.recv room' receipt')

inductive Call.Alike : Call → Call → Prop
  | same (call : Call) : Alike call call
  | operation (fd : Fd) {op op' : Operation} (h : op.Alike op') :
    Alike (.operation fd op) (.operation fd op')

inductive Pending.Alike (p : Pending) : Pending → Prop
  | mk {recv : List Receipt} (h : List.Forall₂ Receipt.Alike p.recv recv) :
    Alike p { p with recv := recv }

/-- Whether totals are the same but for the bytes received. -/
inductive Stats.Alike (stats : Stats) : Stats → Prop
  | mk (received : Nat) : Alike stats { stats with received := received }

inductive Exchange.Alike (x : Exchange) : Exchange → Prop
  | mk {pending : Pending} {done : Array Operation} {stats : Stats} (hp : x.pending.Alike pending)
    (hd : List.Forall₂ Operation.Alike x.done.toList done.toList) (hs : x.stats.Alike stats) :
    Alike x ⟨pending, done, stats⟩

namespace Pending.Alike
variable {p p' more more' : Pending}

theorem refl (p : Pending) : p.Alike p := .mk (List.forall₂_same.2 fun receipt _ => .same receipt)

theorem append (H : p.Alike p') (H' : more.Alike more') :
    (p.append more).Alike (p'.append more') := by
  cases H with
  | mk h =>
    cases H' with
    | mk h' => exact .mk (List.rel_append h h')

end Pending.Alike

theorem Stats.Alike.refl (stats : Stats) : stats.Alike stats := .mk stats.received

theorem Exchange.Alike.push {pending pending' : Pending} {done done' : Array Operation}
    {stats stats' : Stats} {op op' : Operation} (hp : pending.Alike pending')
    (hd : List.Forall₂ Operation.Alike done.toList done'.toList) (hs : stats.Alike stats')
    (h : op.Alike op') : Exchange.Alike ⟨pending, done.push op, stats⟩
      ⟨pending', done'.push op', stats'⟩ := by
  refine .mk hp ?_ hs
  simp only [Array.toList_push]
  exact List.rel_append hd (.cons h .nil)

namespace Talk

/-- Talks that go on in the same way, whatever has been received. -/
abbrev Agree {α β : Type} (R : α → β → Prop) (talk : Talk α) (talk' : Talk β) : Prop :=
  StateM.Agree Exchange.Alike R talk talk'

theorem record_agree {op op' : Operation} (h : op.Alike op') :
    Agree Eq (record op) (record op') := by
  rintro x _ ⟨hp, hd, hs⟩
  exact ⟨rfl, .push hp hd hs h⟩

theorem count_agree {change change' : Stats → Stats}
    (h : ∀ stats stats', stats.Alike stats' → (change stats).Alike (change' stats')) :
    Agree Eq (count change) (count change') := by
  rintro x _ ⟨hp, hd, hs⟩
  exact ⟨rfl, .mk hp hd (h _ _ hs)⟩

theorem addRequest_agree : Agree Eq (count (·.addRequest)) (count (·.addRequest)) :=
  count_agree fun _ _ ⟨received⟩ => .mk received

theorem addSent_agree (n : Nat) : Agree Eq (count (·.addSent n)) (count (·.addSent n)) :=
  count_agree fun _ _ ⟨received⟩ => .mk received

theorem addReceived_agree (n n' : Nat) :
    Agree Eq (count (·.addReceived n)) (count (·.addReceived n')) :=
  count_agree fun _ _ ⟨received⟩ => .mk (received + n')

theorem recv_agree {room room' : Nat} (h : 1 ≤ room) (h' : 1 ≤ room') :
    Agree Receipt.Alike (recv room) (recv room') := by
  have htake {data : List UInt8} {n : Nat} (hn : 1 ≤ n) (hd : data ≠ []) : data.take n ≠ [] := by
    intro hnil
    rcases List.take_eq_nil_iff.1 hnil with h | h
    · omega
    · exact hd h
  rintro ⟨⟨receipts, send, sendfile, error, takeError⟩, done, stats⟩ _ ⟨⟨hp⟩, hd, hs⟩
  cases hp with
  | nil => exact ⟨.same _, .push (.mk .nil) hd hs (.recv _ _ (.same _))⟩
  | @cons receipt receipt' receipts receipts' hr hrs =>
    have hresult :
        Receipt.Alike (receipt.map (List.take room)) (receipt'.map (List.take room')) := by
      cases hr with
      | data hne hne' => exact .data (htake h hne) (htake h' hne')
      | same =>
        rcases receipt with e | data
        · exact .same _
        · by_cases hne : data = []
          · subst hne
            simp only [Except.map, List.take_nil]
            exact .same _
          · exact .data (htake h hne) (htake h' hne)
    have hmap (room : Nat) (receipt : Receipt) (receipts : List Receipt) (done : Array Operation)
        (stats : Stats) : recv room ⟨⟨receipt :: receipts, send, sendfile, error, takeError⟩, done,
          stats⟩ = (receipt.map (List.take room), ⟨⟨receipts, send, sendfile, error, takeError⟩,
            done.push (.recv room (receipt.map (List.take room))), stats⟩) := by
      rcases receipt with e | data <;> rfl
    rw [hmap, hmap]
    exact ⟨hresult, .push (.mk hrs) hd hs (.recv _ _ hresult)⟩

theorem send_agree (data : List UInt8) : Agree Eq (send data) (send data) := by
  rintro x _ ⟨⟨hp⟩, hd, hs⟩
  exact ⟨rfl, .push (.mk hp) hd hs (.same _)⟩

theorem sendfile_agree (content : Content) (offset asked : Nat) :
    Agree Eq (sendfile content offset asked) (sendfile content offset asked) := by
  rintro x _ ⟨⟨hp⟩, hd, hs⟩
  exact ⟨rfl, .push (.mk hp) hd hs (.same _)⟩

theorem takeError_agree : Agree Eq takeError takeError := by
  rintro ⟨⟨receipts, send, sendfile, error, errors⟩, done, stats⟩ _ ⟨⟨hp⟩, hd, hs⟩
  cases errors with
  | nil => exact ⟨rfl, .push (.mk hp) hd hs (.same _)⟩
  | cons e rest => exact ⟨rfl, .push (.mk hp) hd hs (.same _)⟩

end Talk

/-! ## Traces -/

/-- What is seen of calls by someone who does not read the log. -/
def unspoken (calls : List Call) : List Call := calls.filter fun call => !call.isMessage

@[simp] theorem unspoken_append (calls more : List Call) :
    unspoken (calls ++ more) = unspoken calls ++ unspoken more := List.filter_append ..

theorem unspoken_eq_nil {calls : List Call} (h : ∀ call ∈ calls, call.isMessage) :
    unspoken calls = [] := List.filter_eq_nil_iff.2 fun call hcall => by simp [h call hcall]

theorem forall₂_unspoken {R : Call → Call → Prop} {call call' : Call} (h : R call call')
    (hm : call'.isMessage = call.isMessage) :
    List.Forall₂ R (unspoken [call]) (unspoken [call']) := by
  rw [unspoken, unspoken, List.filter_singleton, List.filter_singleton, hm]
  cases call.isMessage with
  | false => exact .cons h .nil
  | true => exact .nil

/-- The descriptor that is closed. -/
def Call.closed? : Call → Option Fd
  | close fd => some fd
  | _ => none

/-- Whether a call is of those that connections are closed by: a socket is taken off the queue or is
closed, or the listener is put on the queue again. -/
def Call.isSweeping : Call → Bool
  | delete .. => true
  | close _ => true
  | add _ token .. => token == listenerToken
  | modify _ token .. => token == listenerToken
  | _ => false

/-- Whether two calls are the same, or the same is done to sockets that are paired: they are taken
off the queue, or closed. -/
inductive Call.Paired (sockets : List (Fd × Fd)) : Call → Call → Prop
  | same (call : Call) : Paired sockets call call
  | delete {fd fd' : Fd} (h : (fd, fd') ∈ sockets) (result : Outcome) :
    Paired sockets (.delete fd result) (.delete fd' result)
  | close {fd fd' : Fd} (h : (fd, fd') ∈ sockets) : Paired sockets (.close fd) (.close fd')

/-- Whether two rows of calls do nothing but close the same sockets, each of them in an order of its
own, and are the same apart from that. -/
structure Rearranged (calls calls' : List Call) : Prop where
  sweeping : ∀ call ∈ calls, call.isSweeping
  perm : (calls.filterMap Call.closed?).Perm (calls'.filterMap Call.closed?)
  nodup : (calls.filterMap Call.closed?).Nodup
  paired : List.Forall₂ (Call.Paired
    ((calls.filterMap Call.closed?).zip (calls'.filterMap Call.closed?))) calls calls'

/-- Whether two rows of calls are the same, but for what comes of receiving, and for the order among
connections that are closed in one go. -/
inductive SameCalls : List Call → List Call → Prop
  | nil : SameCalls [] []
  | append {before before' calls calls' : List Call} (H : SameCalls before before')
    (h : List.Forall₂ Call.Alike calls calls') : SameCalls (before ++ calls) (before' ++ calls')
  | sweep {before before' calls calls' : List Call} (H : SameCalls before before')
    (h : Rearranged calls calls') : SameCalls (before ++ calls) (before' ++ calls')

theorem SameCalls.refl (calls : List Call) : SameCalls calls calls := by
  simpa using SameCalls.nil.append (List.forall₂_same.2 fun call _ => Call.Alike.same call)

/-! ## Kernels -/

/-- What is seen of a trace by someone who does not read the log. -/
def observed (trace : Array Call) : List Call := unspoken trace.toList

/-- Whether the log is written to a file. -/
def LogSink.Fills (log : LogSink) (id : FileId) : Prop := log = .file id

theorem observed_append (trace : Array Call) (calls : List Call) :
    observed (trace ++ calls.toArray) = observed trace ++ unspoken calls := by
  simp [observed]

theorem observed_push (trace : Array Call) (call : Call) :
    observed (trace.push call) = observed trace ++ unspoken [call] := by
  rw [Array.push_eq_append, ← observed_append]

/-- Whether results are laid down in the same way for all calls but those that write. -/
def Forced.Alike (forced forced' : Forced) : Prop :=
  ∀ call, call.isWrite = false → forced' call = forced call

namespace Forced.Alike
variable {forced forced' forced'' : Forced}

theorem symm (H : forced.Alike forced') : forced'.Alike forced :=
  fun call hc => (H call hc).symm

theorem trans (H : forced.Alike forced') (H' : forced'.Alike forced'') : forced.Alike forced'' :=
  fun call hc => (H' call hc).trans (H call hc)

theorem set (H : forced.Alike forced') (call : SystemCall) (replies : List (Option Reply)) :
    (forced.set call replies).Alike (forced'.set call replies) :=
  fun c hc => by simp only [Forced.set, H c hc]

end Forced.Alike

/-- Whether a kernel differs from another one in what it has been told for the log at most. -/
structure Kernel.Told (log : LogSink) (k k' : Kernel) : Prop where
  rest : k' = { k with
    files := k'.files, unwritten := k'.unwritten, forced := k'.forced, trace := k'.trace }
  forced : k.forced.Alike k'.forced
  files : k.files.Alike log.Fills k'.files
  trace : observed k'.trace = observed k.trace

theorem Kernel.Told.refl (log : LogSink) (k : Kernel) : k.Told log k :=
  ⟨rfl, fun _ _ => rfl, .refl k.files, rfl⟩

theorem LogSink.write_told (log : LogSink) (severity : Severity) (message : String) (k : Kernel) :
    k.Told log (log.write severity message k).2 := by
  obtain ⟨outputs, k₁, h, Hk, hfiles, -⟩ := log.write_eq severity message k
  have hf : k.files.Alike log.Fills k₁.files := by
    rw [hfiles]
    cases log with
    | stdout | syslog => exact .refl k.files
    | file id =>
      have hid : (LogSink.file id).Fills id := rfl
      exact ((Files.Alike.refl k.files).append hid _).symm
  rw [h]
  refine ⟨?_, fun call hc => Hk.forced hc, hf, ?_⟩
  · rw [Hk.rest]
    rfl
  · have ht : k₁.trace = k.trace := by rw [Hk.rest]
    simp only [Sys.record, StateM.modify_apply, observed_push, ht]
    rw [unspoken_eq_nil (List.forall_mem_singleton.2 rfl), List.append_nil]

inductive Kernel.Alike (log : LogSink) (k : Kernel) : Kernel → Prop
  | mk {drift : Nat → Int} {walk : Walk} {pending : Table Pending} {forced : Forced}
    {files : Files} {unwritten : List UInt8} {trace : Array Call}
    (hp : k.pending.Rel (fun _ => Pending.Alike) pending) (hr : k.forced.Alike forced)
    (hf : k.files.Alike log.Fills files) (ht : SameCalls (observed k.trace) (observed trace)) :
    Alike log k { k with
      drift := drift, walk := walk, pending := pending, forced := forced, files := files
      unwritten := unwritten, trace := trace }

theorem Call.Alike.isMessage {call call' : Call} (H : call.Alike call') :
    call'.isMessage = call.isMessage := by
  cases H <;> rfl

namespace Kernel.Alike
variable {log : LogSink} {k k' : Kernel} {call call' : Call}

theorem record (H : k.Alike log k') (h : call.Alike call') :
    (Sys.record call k).2.Alike log (Sys.record call' k').2 := by
  obtain ⟨hp, hr, hf, ht⟩ := H
  refine .mk hp hr hf ?_
  simp only [Sys.record, StateM.modify_apply, observed_push]
  exact ht.append (forall₂_unspoken h h.isMessage)

/-- Whatever is told on either side. -/
theorem told {k₁ k₁' : Kernel} (H : k.Alike log k') (Ht : k.Told log k₁) (Ht' : k'.Told log k₁') :
    k₁.Alike log k₁' := by
  obtain @⟨drift, walk, pending, forced, files, unwritten, trace, hp, hr, hf, ht⟩ := H
  rw [Ht'.rest, Ht.rest]
  refine .mk (k := { k with files := _, unwritten := _, forced := _, trace := _ }) hp ?_ ?_ ?_
  · exact (Ht.forced.symm.trans hr).trans Ht'.forced
  · exact (Ht.files.symm.trans hf).trans Ht'.files
  · rw [Ht.trace, Ht'.trace]
    exact ht

end Kernel.Alike

/-! ## System calls -/

namespace Sys
variable {log : LogSink}

/-- Steps of the system that go on in the same way, whatever has been received. -/
abbrev Agree {α β : Type} (log : LogSink) (R : α → β → Prop) (f : Sys α) (g : Sys β) : Prop :=
  StateM.Agree (Kernel.Alike log) R f g

theorem record_agree {call call' : Call} (h : call.Alike call') :
    Agree log Eq (record call) (record call') := fun _ _ H => ⟨rfl, H.record h⟩

theorem reply_agree (call : SystemCall) (hc : call.isWrite = false) :
    Agree log Eq (reply call) (reply call) := by
  rintro k _ ⟨hp, hr, hf, ht⟩
  simp only [reply, StateM.bind_apply, StateM.get_apply, hr call hc]
  cases k.forced call with
  | nil => exact ⟨rfl, .mk hp hr hf ht⟩
  | cons r rest => exact ⟨rfl, .mk hp (hr.set call rest) hf ht⟩

section
variable {I : Kernel → Kernel → Prop}

theorem outcome_agree (call : SystemCall) (H : StateM.Agree I Eq (reply call) (reply call)) :
    StateM.Agree I Eq (outcome call) (outcome call) :=
  H.bind fun r _ hr => by
    subst hr
    split <;> exact .pure rfl

theorem controlResult_agree
    (H : StateM.Agree I Eq (reply .epollControl) (reply .epollControl)) (senseless : Bool)
    (e : Errno) :
    StateM.Agree I Eq (controlResult senseless e) (controlResult senseless e) :=
  (outcome_agree .epollControl H).bind fun r _ hr => by
    subst hr
    split <;> exact .pure rfl

/-- Two calls on the event queue that make sense on both sides, or on neither. -/
theorem control_agree (H : StateM.Agree I Eq (reply .epollControl) (reply .epollControl))
    (senseless : Bool) (e : Errno) {change change' : Kernel → Kernel}
    (hchange : ∀ k k', I k k' → I (change k) (change' k')) {call call' : Outcome → Call}
    (hcall : ∀ r, StateM.Agree I Eq (record (call r)) (record (call' r))) :
    StateM.Agree I Eq
      (do
        let result ← controlResult senseless e
        if result.isOk then modify change
        record (call result)
        return result)
      (do
        let result ← controlResult senseless e
        if result.isOk then modify change'
        record (call' result)
        return result) := by
  refine (controlResult_agree H senseless e).bind fun r _ hr => ?_
  subst hr
  have hrest : StateM.Agree I Eq (do record (call r); return r) (do record (call' r); return r) :=
    (hcall r).bind fun _ _ _ => .pure rfl
  split
  · exact (StateM.Agree.modify hchange).bind fun _ _ _ => hrest
  · exact hrest

end

theorem allocate_agree (resource : Resource) :
    Agree log Eq (allocate resource) (allocate resource) := by
  rintro k _ ⟨hp, hr, hf, ht⟩
  exact ⟨rfl, .mk hp hr hf ht⟩

theorem close_agree (fd : Fd) : Agree log Eq (close fd) (close fd) := by
  refine (outcome_agree .close (reply_agree .close rfl)).bind fun r _ hr => ?_
  subst hr
  refine (StateM.Agree.modify fun k k' ⟨hp, hr, hf, ht⟩ => .mk hp hr hf ht).bind fun _ _ _ => ?_
  exact (record_agree (.same _)).bind fun _ _ _ => .pure rfl

theorem add_agree (fd : Fd) (token : Token) (conditions : Conditions) :
    Agree log Eq (add fd token conditions) (add fd token conditions) :=
  StateM.Agree.get.bind fun _ _ ⟨_, _, _, _⟩ =>
    control_agree (reply_agree .epollControl rfl) _ _
      (fun _ _ ⟨hp, hr, hf, ht⟩ => .mk hp hr hf ht) fun _ => record_agree (.same _)

theorem modifyWatch_agree (fd : Fd) (token : Token) (conditions : Conditions) :
    Agree log Eq (modifyWatch fd token conditions) (modifyWatch fd token conditions) :=
  StateM.Agree.get.bind fun _ _ ⟨_, _, _, _⟩ =>
    control_agree (reply_agree .epollControl rfl) _ _
      (fun _ _ ⟨hp, hr, hf, ht⟩ => .mk hp hr hf ht) fun _ => record_agree (.same _)

theorem delete_agree (fd : Fd) : Agree log Eq (delete fd) (delete fd) :=
  StateM.Agree.get.bind fun _ _ ⟨_, _, _, _⟩ =>
    control_agree (reply_agree .epollControl rfl) _ _
      (fun _ _ ⟨hp, hr, hf, ht⟩ => .mk hp hr hf ht) fun _ => record_agree (.same _)

theorem acceptFrom_agree (listener : Fd) (incoming : List Incoming) :
    Agree log Eq (acceptFrom listener incoming) (acceptFrom listener incoming) := by
  have hset (rest : List Incoming) : Agree log Eq
      (modify fun k => { k with incoming := rest } : Sys Unit)
      (modify fun k => { k with incoming := rest }) :=
    .modify fun _ _ ⟨hp, hr, hf, ht⟩ => .mk hp hr hf ht
  have hfail (e : Errno) : Agree log Eq
      (do record (.accept listener (.error e)); return .error e :
        Sys (Except Errno (Fd × Net.Endpoint)))
      (do record (.accept listener (.error e)); return .error e) :=
    (record_agree (.same _)).bind fun _ _ _ => .pure rfl
  induction incoming with
  | nil => exact (hset []).bind fun _ _ _ => hfail .EAGAIN
  | cons first rest ih =>
    cases first with
    | fails e =>
      by_cases he : e = .EINTR
      · subst he
        exact (record_agree (.same _)).bind fun _ _ _ => ih
      · have h : acceptFrom listener (.fails e :: rest) = (do
            modify fun k => { k with incoming := rest }
            record (.accept listener (.error e))
            return .error e) := by
          cases e <;> first | rfl | exact absurd rfl he
        rw [h]
        exact (hset rest).bind fun _ _ _ => hfail e
    | peer peer nonblocking =>
      refine (hset rest).bind fun _ _ _ => (allocate_agree _).bind fun fd _ hfd => ?_
      subst hfd
      exact (record_agree (.same _)).bind fun _ _ _ => .pure rfl

theorem accept_agree (listener : Fd) : Agree log Eq (accept listener) (accept listener) :=
  StateM.Agree.get.bind fun _ _ ⟨_, _, _, _⟩ => acceptFrom_agree listener _

theorem setNonblocking_agree (fd : Fd) : Agree log Eq (setNonblocking fd) (setNonblocking fd) :=
  StateM.Agree.get.bind fun _ _ ⟨_, _, _, _⟩ =>
    (record_agree (.same _)).bind fun _ _ _ => .pure rfl

theorem localAddress_agree (fd : Fd) : Agree log Eq (localAddress fd) (localAddress fd) :=
  (outcome_agree .getsockname (reply_agree .getsockname rfl)).bind fun r _ hr => by
    subst hr
    split
    · exact .pure rfl
    · refine StateM.Agree.get.bind fun k _ ⟨_, _, _, _⟩ => ?_
      dsimp only
      split <;> exact .pure rfl

theorem usage_agree : Agree log Eq usage usage :=
  (reply_agree .getrusage rfl).bind fun r _ hr => by
    subst hr
    split <;> exact .pure rfl

end Sys

/-! ## The event queue -/

namespace EventQueue
open Sys (Agree)
variable {log : LogSink}

theorem register_agree (fd : Fd) (token : Token) (interest : Interest) :
    Agree log Eq (register fd token interest) (register fd token interest) :=
  (Sys.add_agree fd token interest.conditions).bind fun r _ hr => by
    subst hr
    split
    · exact Sys.modifyWatch_agree fd token interest.conditions
    · exact .pure rfl

theorem deregister_agree (fd : Fd) : Agree log Eq (deregister fd) (deregister fd) :=
  (Sys.delete_agree fd).bind fun r _ hr => by
    subst hr
    split <;> exact .pure rfl

end EventQueue

/-! ## Rounds -/

/-- The same results are laid down on both sides. -/
theorem Forced.Alike.force {forced forced' : Forced} (H : forced.Alike forced')
    (entries : List (SystemCall × List (Option Reply))) :
    (entries.foldl (fun f entry => f.set entry.1 entry.2) forced).Alike
      (entries.foldl (fun f entry => f.set entry.1 entry.2) forced') := by
  induction entries generalizing forced forced' with
  | nil => exact H
  | cons entry entries ih => exact ih (H.set entry.1 entry.2)

/-- Whether two reports are the same but for what they bring to receive. -/
inductive Report.Alike (report : Report) : Report → Prop
  | mk {pending : Pending} (h : report.pending.Alike pending) :
    Alike report { report with pending := pending }

/-- Whether two rounds are the same but for what they bring to receive, and for the order in which
connections are walked through. -/
inductive Round.Alike (round : Round) : Round → Prop
  | mk {walk : Walk} {reports : List Report}
    (h : List.Forall₂ Report.Alike round.reports reports) :
    Alike round { round with walk := walk, reports := reports }

theorem Round.Alike.refl (round : Round) : round.Alike round :=
  .mk (List.forall₂_same.2 fun report _ => .mk (.refl report.pending))

namespace Kernel.Alike
variable {log : LogSink} {k k' : Kernel}

theorem begin (H : k.Alike log k') {round round' : Round} (h : round.Alike round') :
    (k.begin round).Alike log (k'.begin round') := by
  obtain ⟨hp, hr, hf, ht⟩ := H
  obtain ⟨-⟩ := h
  have hforced : (k.begin round).forced.Alike _ := hr.force round.forced
  exact .mk (k := k.begin round) (.refl fun _ p _ => .refl p) hforced (hf.changes _) ht

theorem receive (H : k.Alike log k') {report report' : Report} (h : report.Alike report') :
    (k.receive report).Alike log (k'.receive report') := by
  obtain ⟨hp, hr, hf, ht⟩ := H
  obtain ⟨hreport⟩ := h
  by_cases htoken : report.event.token = listenerToken
  · simp only [Kernel.receive, htoken, if_true]
    exact .mk hp hr hf ht
  · simp only [Kernel.receive, htoken, if_false]
    refine .mk (hp.insert (Pending.Alike.append ?_ hreport)) hr hf ht
    exact hp.getD (.refl {})

end Kernel.Alike

theorem Kernel.Alike.receives {log : LogSink} {k k' : Kernel} (H : k.Alike log k')
    {reports reports' : List Report} (h : List.Forall₂ Report.Alike reports reports') :
    (reports.foldl Kernel.receive k).Alike log (reports'.foldl Kernel.receive k') := by
  induction h generalizing k k' with
  | nil => exact H
  | cons hr _ ih => exact ih (H.receive hr)

theorem Report.Alike.events {reports reports' : List Report}
    (h : List.Forall₂ Report.Alike reports reports') :
    reports'.map (·.event) = reports.map (·.event) := by
  induction h with
  | nil => rfl
  | cons hr _ ih =>
    obtain ⟨-⟩ := hr
    rw [List.map_cons, List.map_cons, ih]

namespace Sys

theorem wait_agree {log : LogSink} (capacity : Nat) (timeout : Int) {round? round?' : Option Round}
    (h : Option.Rel Round.Alike round? round?') :
    Agree log Eq (wait capacity timeout round?) (wait capacity timeout round?') := by
  cases h with
  | none => exact (record_agree (.same _)).bind fun _ _ _ => .pure rfl
  | @some round round' h =>
    refine (StateM.Agree.modify fun k k' H => H.begin h).bind fun _ _ _ => ?_
    obtain ⟨hr⟩ := h
    dsimp only
    split
    · exact (record_agree (.same _)).bind fun _ _ _ => .pure rfl
    · have htake := List.forall₂_take capacity hr
      refine (StateM.Agree.modify fun k k' H => H.receives htake).bind fun _ _ _ => ?_
      rw [Report.Alike.events htake, htake.length_eq]
      exact (record_agree (.same _)).bind fun _ _ _ => .pure rfl

end Sys

end OnePage
