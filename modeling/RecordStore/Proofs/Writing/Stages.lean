import RecordStore.Proofs.Writing.Cache

/-! # The stages of a write

A write prepares its statement, sends it, and only then changes anything else: it evicts what its
directive covers, or sets the key of the inserted record and caches it.  `Modifier.perform_eq` takes
every write apart in this way.  From it follow what a write leaves that fails before its statement
has succeeded (`Modifier.perform_unchanged`).

What is asked of a connection is seen by `Connection.recorded`, which answers as the connection does
and keeps a list. -/

namespace RecordStore

/-! ### Connections that keep a record -/

/-- A question to a database and its answer. -/
inductive Exchange where
  | query (statement : CompiledStatement) (answer : Except StoreError (List (List Value)))
  | execute (statement : CompiledStatement) (answer : Except StoreError Nat)
  | lastGeneratedKey (answer : Except StoreError (Option Value))

/-- The connection with a list of what it was asked, the first question first. -/
def Connection.recorded {σ : Type} (conn : Connection σ) : Connection (σ × List Exchange) where
  dialect := conn.dialect
  query s := fun (db, log) =>
    let (answer, db) := conn.query s db
    (answer, db, log ++ [.query s answer])
  execute s := fun (db, log) =>
    let (answer, db) := conn.execute s db
    (answer, db, log ++ [.execute s answer])
  lastGeneratedKey := fun (db, log) =>
    let (answer, db) := conn.lastGeneratedKey db
    (answer, db, log ++ [.lastGeneratedKey answer])
  hashOrder := fun (db, _) => conn.hashOrder db

theorem Connection.recorded_query {σ : Type} (conn : Connection σ) (s : CompiledStatement) (db : σ)
    (log : List Exchange) : conn.recorded.query s (db, log) =
      ((conn.query s db).1, (conn.query s db).2, log ++ [.query s (conn.query s db).1]) :=
  rfl

theorem Connection.recorded_execute {σ : Type} (conn : Connection σ) (s : CompiledStatement)
    (db : σ) (log : List Exchange) : conn.recorded.execute s (db, log) =
      ((conn.execute s db).1, (conn.execute s db).2, log ++ [.execute s (conn.execute s db).1]) :=
  rfl

theorem Connection.recorded_lastGeneratedKey {σ : Type} (conn : Connection σ) (db : σ)
    (log : List Exchange) : conn.recorded.lastGeneratedKey (db, log) =
      ((conn.lastGeneratedKey db).1, (conn.lastGeneratedKey db).2,
        log ++ [.lastGeneratedKey (conn.lastGeneratedKey db).1]) :=
  rfl

/-! ### Writes -/

/-- A write.  Inserting and updating a record concern the record in the caller's hands. -/
inductive Modifier where
  | insertRecord
  | updateRecord
  | updateMatching (r : RecordType) (assignments : List FieldExpr) (condition : Expr)
      (guard : Directive)
  | deleteMatching (r : RecordType) (condition : Expr) (guard : Directive)
  | createIndex (i : CreateIndex)
  | dropIndex (i : DropIndex)

namespace Modifier

variable {σ α : Type} [Record α]

/-- The write over a connection. -/
def perform (conn : Connection σ) : Modifier → RecordWriting σ α Nat
  | insertRecord => RecordWriting.insertRecord conn
  | updateRecord => do RecordWriting.lift (Writing.updateRecord conn (← get).2)
  | updateMatching r assignments condition guard =>
    RecordWriting.lift (Writing.updateMatching conn r assignments condition guard)
  | deleteMatching r condition guard =>
    RecordWriting.lift (Writing.deleteMatching conn r condition guard)
  | createIndex i => RecordWriting.lift (Writing.createIndex conn i)
  | dropIndex i => RecordWriting.lift (Writing.dropIndex conn i)

/-- What the connection is asked during the write. -/
def exchanges (conn : Connection σ) (m : Modifier) (st : WriteState σ) (record : α) :
    List Exchange :=
  (finalState (m.perform conn.recorded
    (⟨(st.connection, []), st.cache, st.stats⟩, record))).1.connection.2

/-- The statement of the write: an update reads the key of the record first, and a directive is
validated first. -/
def statement (record : α) : Modifier → Except StoreError Statement
  | insertRecord => do return .insert (← StoreError.lift (Insert.ofRecord record))
  | updateRecord => do
    match ← Record.key record with
    | none => throw (.configuration (.updateWithoutKey (Record.type α).name))
    | some _ => return .update (← StoreError.lift (Update.ofRecord record))
  | updateMatching r assignments condition guard => do
    guard.validate r
    return .update ⟨r, assignments, some condition⟩
  | deleteMatching r condition guard => do
    guard.validate r
    return .delete ⟨r, some condition⟩
  | createIndex i => return .createIndex i
  | dropIndex i => return .dropIndex i

/-- Everything before the statement is sent. -/
def prepare (dialect : Dialect) (record : α) (m : Modifier) :
    Except StoreError CompiledStatement := do
  StoreError.lift (compile dialect (← m.statement record))

/-- The directive of the write: an update of a record evicts by the record's key, and an insertion
has none. -/
def guard? (record : α) : Modifier → Option Directive
  | insertRecord | createIndex _ | dropIndex _ => none
  | updateRecord =>
    match Record.key record with
    | .ok (some key) => some (.rows (.key _ key))
    | _ => none
  | updateMatching _ _ _ guard | deleteMatching _ _ guard => some guard

/-- Everything after the statement has succeeded. -/
def finish (conn : Connection σ) (record : α) : Modifier → RecordWriting σ α Unit
  | insertRecord => do
    RecordWriting.assignGeneratedKey conn
    RecordWriting.cacheInserted
  | m =>
    match m.guard? record with
    | some d => RecordWriting.lift (Writing.evict d.apply)
    | none => pure ()

/-- The state in which a write finishes whose statement has affected this many rows. -/
def sent (st : WriteState σ) (record : α) (affected : Nat) (connection : σ) : WriteState σ × α :=
  ({ st with
    connection
    stats := { st.stats with
      statements := st.stats.statements + 1
      rowsAffected := st.stats.rowsAffected + affected } }, record)

/-- The write once it is prepared: the statement is sent, and its failure ends the write. -/
def complete (conn : Connection σ) (m : Modifier) (st : WriteState σ) (record : α) :
    Except StoreError CompiledStatement → EStateM.Result StoreError (WriteState σ × α) Nat
  | .error e => .error e (st, record)
  | .ok compiled =>
    match conn.execute compiled st.connection with
    | (.error e, connection) => .error e ({ st with connection }, record)
    | (.ok affected, connection) =>
      (m.finish conn record >>= fun _ => pure affected) (sent st record affected connection)

end Modifier

namespace RecordWriting

variable {σ : Type} (conn : Connection σ) {α β γ : Type}

theorem lift_bind (x : Writing σ β) (f : β → Writing σ γ) :
    (lift (x >>= f) : RecordWriting σ α γ) = lift x >>= fun b => lift (f b) := by
  funext ⟨st, record⟩
  cases hx : x st with
  | ok b st' =>
      rw [bind_of_ok (lift_of_ok hx record)]
      unfold lift
      dsimp only
      rw [bind_of_ok hx]
  | error e st' =>
      rw [bind_of_error (lift_of_error hx record), lift_of_error (bind_of_error hx)]

theorem lift_ofExcept (x : Except StoreError β) :
    (lift (ofExcept x) : RecordWriting σ α β) = ofExcept x := by
  cases x <;> rfl

end RecordWriting

namespace Modifier

variable {σ α : Type} [Record α] {conn : Connection σ} {st : WriteState σ} {record : α}

variable (conn record) in
/-- Sending a statement and finishing. -/
def sendAndFinish (m : Modifier) (s : Statement) : RecordWriting σ α Nat := do
  let affected ← RecordWriting.lift (Writing.run conn s)
  m.finish conn record
  return affected

omit [Record α] in
variable (conn st record) in
/-- Running a statement, stage by stage. -/
theorem lift_run (s : Statement) :
    (RecordWriting.lift (Writing.run conn s) : RecordWriting σ α Nat) (st, record) =
      match StoreError.lift (compile conn.dialect s) with
      | .error e => .error e (st, record)
      | .ok compiled =>
        match conn.execute compiled st.connection with
        | (.error e, connection) => .error e ({ st with connection }, record)
        | (.ok affected, connection) => .ok affected (sent st record affected connection) := by
  unfold RecordWriting.lift Writing.run
  dsimp only
  cases StoreError.lift (compile conn.dialect s) with
  | error e => rfl
  | ok compiled =>
      dsimp only
      cases conn.execute compiled st.connection with
      | mk answer connection => cases answer <;> rfl

/-- A prepared write is its statement, sent, and what follows. -/
theorem complete_prepare (m : Modifier) :
    m.complete conn st record (m.prepare conn.dialect record) =
      (ofExcept (m.statement record) >>= m.sendAndFinish conn record) (st, record) := by
  unfold prepare
  cases hstatement : m.statement record with
  | error e => rfl
  | ok s =>
      have hrun := lift_run conn st record s
      rw [bind_of_ok (ofExcept_ok s (st, record))]
      change m.complete conn st record (StoreError.lift (compile conn.dialect s)) = _
      unfold sendAndFinish
      cases hcompile : StoreError.lift (compile conn.dialect s) with
      | error e =>
          rw [hcompile] at hrun
          rw [bind_of_error hrun]
          rfl
      | ok compiled =>
          rw [hcompile] at hrun
          unfold complete
          dsimp only at hrun ⊢
          cases hexecute : conn.execute compiled st.connection with
          | mk answer connection =>
              rw [hexecute] at hrun
              cases answer with
              | error e => rw [bind_of_error hrun]
              | ok affected => rw [bind_of_ok hrun]

/-- Running a statement and applying a directive is sending the statement and finishing. -/
theorem lift_guarded {m : Modifier} {d : Directive} (s : Statement)
    (h : m.finish conn record = RecordWriting.lift (Writing.evict d.apply)) :
    (RecordWriting.lift (do
      let affected ← Writing.run conn s
      Writing.evict d.apply
      return affected) : RecordWriting σ α Nat) = m.sendAndFinish conn record s := by
  unfold sendAndFinish
  rw [h, RecordWriting.lift_bind]
  rfl

/-- A change under a directive that is validated first. -/
theorem lift_validated {m : Modifier} {d : Directive} {r : RecordType} (s : Statement)
    (hfinish : m.finish conn record = RecordWriting.lift (Writing.evict d.apply))
    (hstatement : m.statement record = d.validate r >>= fun _ => pure s) :
    (RecordWriting.lift (do
      ofExcept (d.validate r)
      let affected ← Writing.run conn s
      Writing.evict d.apply
      return affected) : RecordWriting σ α Nat) =
      ofExcept (m.statement record) >>= m.sendAndFinish conn record := by
  rw [hstatement, RecordWriting.lift_bind, RecordWriting.lift_ofExcept]
  cases d.validate r with
  | error e => rfl
  | ok u => exact lift_guarded s hfinish

/-- Running a statement after which nothing is evicted. -/
theorem lift_unguarded {m : Modifier} (s : Statement) (h : m.finish conn record = pure ()) :
    (RecordWriting.lift (Writing.run conn s) : RecordWriting σ α Nat) =
      m.sendAndFinish conn record s := by
  unfold sendAndFinish
  simp only [h, pure_bind, bind_pure]

theorem updateRecord_eq :
    (RecordWriting.lift (Writing.updateRecord conn record) : RecordWriting σ α Nat) =
      ofExcept (updateRecord.statement record) >>= updateRecord.sendAndFinish conn record := by
  change _ = ofExcept (Record.key record >>= _) >>= _
  unfold Writing.updateRecord
  rw [RecordWriting.lift_bind, RecordWriting.lift_ofExcept]
  cases hkey : Record.key record with
  | error e => rfl
  | ok key? =>
      cases key? with
      | none => rfl
      | some key =>
          have hfinish : updateRecord.finish conn record =
              RecordWriting.lift (Writing.evict (Directive.rows (.key _ key)).apply) := by
            unfold finish guard?
            rw [hkey]
          change RecordWriting.lift (ofExcept (StoreError.lift (Update.ofRecord record)) >>= _) =
            ofExcept (StoreError.lift (Update.ofRecord record) >>= _) >>= _
          rw [RecordWriting.lift_bind, RecordWriting.lift_ofExcept]
          cases StoreError.lift (Update.ofRecord record) with
          | error e => rfl
          | ok update => exact lift_guarded (.update update) hfinish

theorem insertRecord_eq : RecordWriting.insertRecord conn (st, record) =
    (ofExcept (insertRecord.statement record) >>= insertRecord.sendAndFinish conn record)
      (st, record) := by
  have hget : (MonadState.get : RecordWriting σ α _) (st, record) =
      .ok (st, record) (st, record) := rfl
  unfold RecordWriting.insertRecord RecordWriting.sendInsert
  simp only [bind_assoc, pure_bind]
  rw [bind_of_ok hget]
  change _ = (ofExcept (StoreError.lift (Insert.ofRecord record) >>= _) >>= _ :
    RecordWriting σ α Nat) (st, record)
  cases StoreError.lift (Insert.ofRecord record) with
  | error e => rfl
  | ok insert =>
      change _ = insertRecord.sendAndFinish conn record (.insert insert) (st, record)
      -- Here assigning the key comes with sending, there with finishing.
      unfold sendAndFinish finish
      simp only [bind_assoc]
      rfl

variable (conn st record) in
/-- Every write prepares its statement, sends it and finishes. -/
theorem perform_eq (m : Modifier) :
    m.perform conn (st, record) = m.complete conn st record (m.prepare conn.dialect record) := by
  rw [complete_prepare]
  cases m with
  | insertRecord => exact insertRecord_eq
  | updateRecord => exact congrFun updateRecord_eq (st, record)
  | updateMatching r assignments condition guard =>
      have h : (updateMatching r assignments condition guard).finish conn record =
        RecordWriting.lift (Writing.evict guard.apply) := rfl
      exact congrFun (lift_validated (.update ⟨r, assignments, some condition⟩) h rfl) (st, record)
  | deleteMatching r condition guard =>
      have h : (deleteMatching r condition guard).finish conn record =
        RecordWriting.lift (Writing.evict guard.apply) := rfl
      exact congrFun (lift_validated (.delete ⟨r, some condition⟩) h rfl) (st, record)
  | createIndex i =>
      have h : (createIndex i).finish conn record = pure () := rfl
      exact congrFun (lift_unguarded (.createIndex i) h) (st, record)
  | dropIndex i =>
      have h : (dropIndex i).finish conn record = pure () := rfl
      exact congrFun (lift_unguarded (.dropIndex i) h) (st, record)

/-! ### Writes that fail before their statement has succeeded -/

/-- Nobody is asked anything before the statement is sent. -/
theorem exchanges_of_refused {m : Modifier} {e : StoreError}
    (h : m.prepare conn.dialect record = .error e) : m.exchanges conn st record = [] := by
  have h' : m.prepare conn.recorded.dialect record = .error e := h
  unfold exchanges
  rw [perform_eq, h']
  rfl

/-- A statement that fails is all that is sent. -/
theorem exchanges_of_execute_error {m : Modifier} {compiled : CompiledStatement} {e : StoreError}
    {db : σ} (h : m.prepare conn.dialect record = .ok compiled)
    (hexecute : conn.execute compiled st.connection = (.error e, db)) :
    m.exchanges conn st record = [.execute compiled (.error e)] := by
  have h' : m.prepare conn.recorded.dialect record = .ok compiled := h
  have hexecute' := conn.recorded_execute compiled st.connection []
  rw [hexecute] at hexecute'
  unfold exchanges
  rw [perform_eq, h']
  unfold complete
  dsimp only
  rw [hexecute']
  rfl

/-- A statement that succeeded during the write is the prepared one. -/
theorem exists_of_executed {m : Modifier} {s : CompiledStatement} {n : Nat}
    (h : Exchange.execute s (.ok n) ∈ m.exchanges conn st record) :
    ∃ compiled affected db, m.prepare conn.dialect record = .ok compiled ∧
      conn.execute compiled st.connection = (.ok affected, db) := by
  cases hprepare : m.prepare conn.dialect record with
  | error e =>
      rw [exchanges_of_refused hprepare] at h
      cases h
  | ok compiled =>
      cases hexecute : conn.execute compiled st.connection with
      | mk answer db =>
          cases answer with
          | error e =>
              rw [exchanges_of_execute_error hprepare hexecute, List.mem_singleton] at h
              cases h
          | ok affected => exact ⟨compiled, affected, db, rfl, hexecute⟩

end Modifier

/-! ### What follows the statement -/

namespace RecordWriting

variable {σ α : Type}

/-- What is done to the cache asks the connection nothing. -/
theorem evict_connection (f : MemoryCache → Nat × MemoryCache) :
    RecordStore.Within (fun p p' => p'.1.connection = p.1.connection)
      (lift (Writing.evict f) : RecordWriting σ α Unit) := by
  rintro ⟨⟨db, cache, stats⟩, record⟩
  cases cache <;> rfl

theorem cacheInserted_connection [Record α] :
    RecordStore.Within (fun p p' => p'.1.connection = p.1.connection)
      (cacheInserted : RecordWriting σ α Unit) := by
  have refl (p : WriteState σ × α) : p.1.connection = p.1.connection := rfl
  have trans (p q r : WriteState σ × α) (h : q.1.connection = p.1.connection)
      (h' : r.1.connection = q.1.connection) : r.1.connection = p.1.connection := h'.trans h
  unfold cacheInserted
  refine RecordStore.Within.bind trans refl fun p => ?_
  split
  · refine RecordStore.Within.bind trans (evict_connection _) fun _ => ?_
    rintro ⟨st, record⟩
    have hremember := rememberRecord_eq st record
    cases hrun : (rememberRecord : RecordWriting σ α Unit) (st, record) with
    | error e p =>
        rw [hrun] at hremember
        exact congrArg WriteState.connection hremember
    | ok u p =>
        rw [hrun] at hremember
        obtain ⟨-, ⟨-, hst⟩ | ⟨key, values, -, -, hst⟩⟩ := hremember
        · exact congrArg WriteState.connection hst
        · exact (congrArg WriteState.connection hst :)
  · exact refl

end RecordWriting

namespace Modifier

variable {σ α : Type} [Record α] {conn : Connection σ} {st : WriteState σ} {record : α}

/-- What follows the statement adds to the list of exchanges only. -/
theorem finish_appends (m : Modifier) :
    Within (fun p p' => p.1.connection.2 <+: p'.1.connection.2)
      (m.finish conn.recorded record : RecordWriting (σ × List Exchange) α Unit) := by
  have trans (p q r : WriteState (σ × List Exchange) × α)
      (h : p.1.connection.2 <+: q.1.connection.2) (h' : q.1.connection.2 <+: r.1.connection.2) :
      p.1.connection.2 <+: r.1.connection.2 := h.trans h'
  have kept {x : RecordWriting (σ × List Exchange) α Unit}
      (h : Within (fun p p' => p'.1.connection = p.1.connection) x) :
      Within (fun p p' => p.1.connection.2 <+: p'.1.connection.2) x :=
    fun p => ⟨[], (List.append_nil _).trans (congrArg Prod.snd (h p)).symm⟩
  cases m with
  | insertRecord =>
      refine Within.bind trans ?_ fun _ => kept RecordWriting.cacheInserted_connection
      refine RecordWriting.assignGeneratedKey_within _ (fun _ => List.prefix_refl _) trans ?_
        fun _ _ _ => List.prefix_refl _
      intro p
      have hlast := conn.recorded_lastGeneratedKey p.1.connection.1 p.1.connection.2
      unfold RecordWriting.lastGeneratedKey
      dsimp only
      rw [hlast]
      cases (conn.lastGeneratedKey p.1.connection.1).1 <;> exact List.prefix_append _ _
  | updateRecord =>
      unfold finish guard?
      cases Record.key record with
      | error e => exact fun p => List.prefix_refl _
      | ok key? =>
          cases key? with
          | none => exact fun p => List.prefix_refl _
          | some key => exact kept (RecordWriting.evict_connection _)
  | updateMatching r assignments condition guard => exact kept (RecordWriting.evict_connection _)
  | deleteMatching r condition guard => exact kept (RecordWriting.evict_connection _)
  | createIndex i => exact fun p => List.prefix_refl _
  | dropIndex i => exact fun p => List.prefix_refl _

/-- A statement that succeeded stays on the list, whatever follows. -/
theorem mem_exchanges_of_executed {m : Modifier} {compiled : CompiledStatement} {n : Nat} {db : σ}
    (h : m.prepare conn.dialect record = .ok compiled)
    (hexecute : conn.execute compiled st.connection = (.ok n, db)) :
    Exchange.execute compiled (.ok n) ∈ m.exchanges conn st record := by
  have h' : m.prepare conn.recorded.dialect record = .ok compiled := h
  have hexecute' := conn.recorded_execute compiled st.connection []
  rw [hexecute] at hexecute'
  unfold exchanges
  rw [perform_eq, h']
  unfold complete
  dsimp only
  rw [hexecute']
  have happends : Within (fun p p' => p.1.connection.2 <+: p'.1.connection.2)
      (m.finish conn.recorded record >>= fun _ => pure n) :=
    Within.bind (fun _ _ _ h h' => h.trans h') m.finish_appends fun _ _ => List.prefix_refl _
  exact (happends _).subset (List.mem_singleton_self _)

/-- A write that is refused before its statement is sent asks nobody anything, and one whose
statement fails sends just that: the error is returned, and the cache, the record and the count of
what writing cost are as they were.  In the remaining case the statement has succeeded. -/
theorem perform_unchanged (m : Modifier) (conn : Connection σ) (db : σ)
    (cache : Option MemoryCache) (record : α) :
    match m.prepare conn.dialect record with
    | .error e =>
      m.perform conn (⟨db, cache, {}⟩, record) = .error e (⟨db, cache, {}⟩, record) ∧
        m.exchanges conn ⟨db, cache, {}⟩ record = []
    | .ok compiled =>
      match conn.execute compiled db with
      | (.error e, db') =>
        m.perform conn (⟨db, cache, {}⟩, record) = .error e (⟨db', cache, {}⟩, record) ∧
          m.exchanges conn ⟨db, cache, {}⟩ record = [.execute compiled (.error e)]
      | (.ok n, _) =>
        Exchange.execute compiled (.ok n) ∈ m.exchanges conn ⟨db, cache, {}⟩ record := by
  have hperform := m.perform_eq conn ⟨db, cache, {}⟩ record
  cases hprepare : m.prepare conn.dialect record with
  | error e =>
      rw [hprepare] at hperform
      exact ⟨hperform, exchanges_of_refused hprepare⟩
  | ok compiled =>
      rw [hprepare] at hperform
      unfold complete at hperform
      dsimp only at hperform ⊢
      cases hexecute : conn.execute compiled db with
      | mk answer db' =>
          rw [hexecute] at hperform
          cases answer with
          | error e => exact ⟨hperform, exchanges_of_execute_error hprepare hexecute⟩
          | ok n => exact mem_exchanges_of_executed hprepare hexecute

end Modifier

end RecordStore
