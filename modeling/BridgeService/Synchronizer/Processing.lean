import BridgeService.Synchronizer.Transaction

/-!
# Statements inside a block

While a block is being processed, the tables of the transaction stay well
formed, and the exit tree of the network represents their leaves.  Statements
that do not touch the deposits keep this; they either change the tables of the
transaction as they say or leave everything to be rolled back.
-/

namespace BridgeService

open ErrorState

variable {H α : Type} [Externals H]

/-- A block is being processed, and the transaction sees these tables. -/
structure World.Processing (before : World H) (networkID height : Nat)
    (t : Tables H) (w : World H) : Prop where
  session : ∃ mt, before.opened.Session .tx networkID t mt w ∧
    mt.networkID = networkID ∧
    mt.Represents height (t.leavesOf networkID)
  tables : t.TreeTables height
  capacity : (t.leavesOf networkID).length < 2 ^ height
  others : ∀ other, other ≠ networkID →
    t.leavesOf other = before.committed.leavesOf other

variable {before w : World H} {networkID height : Nat} {t t' : Tables H}

theorem World.Processing.working
    (processing : before.Processing networkID height t w) :
    before.opened.Working .tx networkID height w := by
  obtain ⟨mt, session, network, represents⟩ := processing.session
  exact ⟨t, mt, session, represents.height_eq, network⟩

private theorem processing_of_sameTrees
    (same : t.SameTrees t') (tables : t.TreeTables height)
    (capacity : (t.leavesOf networkID).length < 2 ^ height)
    (others : ∀ other, other ≠ networkID →
      t.leavesOf other = before.committed.leavesOf other)
    {mt : MerkleTree H} (network : mt.networkID = networkID)
    (represents : mt.Represents height (t.leavesOf networkID))
    (session : before.opened.Session .tx networkID t' mt w) :
    before.Processing networkID height t' w where
  session := by
    refine ⟨mt, session, network, ?_⟩
    rw [Tables.leavesOf_congr same.entries]
    exact represents
  tables := tables.congr same.entries same.root same.rht
  capacity := by
    rw [Tables.leavesOf_congr same.entries]
    exact capacity
  others := by
    intro other different
    rw [Tables.leavesOf_congr same.entries]
    exact others other different

/-- A program either ends with a result or leaves the block to be undone. -/
abbrev World.Attempts (before : World H) (networkID height : Nat)
    (t : Tables H) (program : Service H α) (after : α → World H → Prop) :
    Prop :=
  Triple (before.Processing networkID height t) program after
    fun _ => before.opened.Working .tx networkID height

abbrev World.Handles (before : World H) (networkID height : Nat)
    (t : Tables H) (program : Service H α) (after : α → World H → Prop) :
    Prop :=
  Triple (before.Processing networkID height t) program after
    (before.Failed networkID height)

variable {call : StorageCall}

theorem exec_processing
    {statement : Sequences → Tables H → Except Err (α × Sequences × Tables H)}
    (keeps : ∀ seqs value seqs' t', t.Issued seqs →
      statement seqs t = .ok (value, seqs', t') →
      t.SameTrees t' ∧ seqs.Le seqs' ∧ t'.Issued seqs') :
    before.Attempts networkID height t (Storage.exec call .tx statement)
      (fun value w => ∃ seqs seqs' t', t.Issued seqs ∧
        statement seqs t = .ok (value, seqs', t') ∧
        before.Processing networkID height t' w) := by
  intro w processing
  obtain ⟨mt, session, network, represents⟩ := processing.session
  refine ((exec_session statement).weaken ?_ ?_) w session
  · rintro value w ⟨seqs, seqs', t', tick, ordered, issued, ran, rfl⟩
    obtain ⟨same, later, issued'⟩ := keeps seqs value seqs' t' issued ran
    exact ⟨seqs, seqs', t', issued, ran, processing_of_sameTrees same
      processing.tables processing.capacity processing.others network
      represents ⟨seqs', tick, rfl, ordered.trans later, issued'⟩⟩
  · rintro err w ⟨session, _⟩
    exact ⟨t, mt, session, represents.height_eq, network⟩

theorem update_processing {change : Tables H → Except Err (Tables H)}
    (keeps : ∀ t', change t = .ok t' → t.SameTrees t' ∧
      ∀ seqs, t.Issued seqs → t'.Issued seqs) :
    before.Attempts networkID height t (Storage.update call .tx change)
      (fun _ w => ∃ t', change t = .ok t' ∧
        before.Processing networkID height t' w) := by
  intro w processing
  obtain ⟨mt, session, network, represents⟩ := processing.session
  refine ((update_session change fun seqs t' changed issued =>
    (keeps t' changed).2 seqs issued).weaken ?_ ?_) w session
  · rintro _ w ⟨t', changed, session⟩
    exact ⟨t', changed, processing_of_sameTrees (keeps t' changed).1
      processing.tables processing.capacity processing.others network
      represents session⟩
  · rintro err w ⟨session, _⟩
    exact ⟨t, mt, session, represents.height_eq, network⟩

theorem change_processing {change : Tables H → Tables H}
    (same : t.SameTrees (change t))
    (issued : ∀ seqs, t.Issued seqs → (change t).Issued seqs) :
    before.Attempts networkID height t
      (Storage.update call .tx fun t => .ok (change t))
      fun _ => before.Processing networkID height (change t) := by
  refine (update_processing ?_).post ?_
  · intro t' changed
    rw [← Except.ok.inj changed]
    exact ⟨same, issued⟩
  · rintro _ w ⟨t', changed, processing⟩
    rw [Except.ok.inj changed]
    exact processing

theorem query_keeps (read : Tables H → Except Err α) :
    Triple (before.Processing networkID height t)
      (Storage.query call .tx read)
      (fun value w => before.Processing networkID height t w ∧
        read t = .ok value)
      (fun _ => before.Processing networkID height t) := by
  intro w processing
  obtain ⟨mt, session, network, represents⟩ := processing.session
  have kept : ∀ {w}, before.opened.Session .tx networkID t mt w →
      before.Processing networkID height t w :=
    fun session => ⟨⟨mt, session, network, represents⟩, processing.tables,
      processing.capacity, processing.others⟩
  exact ((query_session read).weaken
    (fun _ _ result => ⟨kept result.1, result.2⟩)
    fun _ _ failed => kept failed.1) w session

theorem query_processing (read : Tables H → Except Err α) :
    before.Attempts networkID height t (Storage.query call .tx read)
      (fun value w => before.Processing networkID height t w ∧
        read t = .ok value) :=
  (query_keeps read).onError fun _ _ failed => failed.working

theorem poolQuery_processing (read : Tables H → Except Err α) :
    Triple (before.Processing networkID height t)
      (Storage.query call .pool read)
      (fun value w => before.Processing networkID height t w ∧
        read before.committed = .ok value)
      (fun err w => before.Processing networkID height t w ∧
        (err = .database ∨ read before.committed = .error err)) := by
  intro w processing
  obtain ⟨mt, ⟨seqs, tick, rfl, ordered, issued⟩, network, represents⟩ :=
    processing.session
  have kept : ∀ w, (before.opened.put .tx networkID seqs t mt
      tick).Ticked w → before.Processing networkID height t w :=
    fun w ticked =>
      ⟨⟨mt, World.session_ticked ordered issued ticked, network,
        represents⟩, processing.tables, processing.capacity,
        processing.others⟩
  have view : (before.opened.put .tx networkID seqs t mt tick).view .pool =
      some before.committed := rfl
  refine ((Storage.query_triple read view).weaken ?_ ?_) _ (.refl _)
  · rintro value w ⟨ticked, found⟩
    exact ⟨kept w ticked, found⟩
  · rintro err w ⟨ticked, failed | ⟨database, _⟩⟩
    · exact ⟨kept w ticked, .inr failed⟩
    · exact ⟨kept w ticked, .inl database⟩

end BridgeService
