import BridgeService.Claimtxman.MonitorProtocol

/-!
# Steps of the protocol

What a call of the protocol does to the shared state and to the position of its
goroutine.  Only a commit changes the tables, and only three calls change the
nonce cache.
-/

namespace BridgeService

open Calls NoncePosition

variable {H : Type}

namespace ClaimShared

variable {shared : ClaimShared H} {worker : ClaimWorker}
  {changes : Option (List (ClaimWrite H))}

theorem setDbTx_self (same : shared.dbTx worker = changes) :
    shared.setDbTx worker changes = shared := by
  rw [setDbTx, ← same, Function.update_eq_self]

@[simp] theorem setDbTx_dbTx_self :
    (shared.setDbTx worker changes).dbTx worker = changes := by
  simp [setDbTx]

theorem setDbTx_dbTx_other {other : ClaimWorker} (different : other ≠ worker) :
    (shared.setDbTx worker changes).dbTx other = shared.dbTx other := by
  simp [setDbTx, different]

end ClaimShared

open ClaimShared

/-- What a call does to the shared state and to the position. -/
inductive NonceStep (creates : Option Address) (worker : ClaimWorker)
    (shared : ClaimShared H) (position : NoncePosition H) :
    (call : ClaimCall H) → call.Answer → ClaimShared H → NoncePosition H → Prop
  | quiet {call : ClaimCall H} {answer : call.Answer} :
      NonceStep creates worker shared position call answer shared position
  | opened {answer : Except String Unit}
      (changes : Option (List (ClaimWrite H)))
      (nothing : changes = none ∨ changes = some [])
      (ready : position.Ready creates) :
      NonceStep creates worker shared position .beginDBTransaction answer
        (shared.setDbTx worker changes) position.closed
  | aborted {call : ClaimCall H} {answer : call.Answer}
      (ready : position.Ready creates) :
      NonceStep creates worker shared position call answer
        (shared.setDbTx worker none) position
  | rolledBack {answer : Except String Unit}
      (ready : position.Ready creates) :
      NonceStep creates worker shared position .rollback answer
        (shared.setDbTx worker none) position.closed
  | commitFailed {err : String} (closable : position.Closable creates) :
      NonceStep creates worker shared position .commit (.error err)
        (shared.setDbTx worker none) position.closed
  | committed {changes : List (ClaimWrite H)}
      (closable : position.Closable creates)
      (written : shared.dbTx worker = some changes) :
      NonceStep creates worker shared position .commit (.ok ())
        { shared.setDbTx worker none with
          store := changes.foldl ClaimWrite.apply shared.store }
        position.closed
  | listed {rollupID : Nat}
      {listed : List (MonitoredTx H) → List (MonitoredTx H)}
      (perm : ∀ rows, (listed rows).Perm rows) (monitors : creates = none)
      (ready : position.Ready creates) :
      NonceStep creates worker shared position
        (.getClaimTxsByStatus [.created] rollupID)
        (.ok (shared.store.getClaimTxsByStatus [.created] rollupID listed))
        shared
        { position with
          copies := shared.store.getClaimTxsByStatus [.created] rollupID
            listed }
  | asked {fromAddr : Address} (ready : position.Ready creates)
      (own : ∀ sender, creates = some sender → fromAddr = sender) :
      NonceStep creates worker shared position (.nonceAt fromAddr)
        (.ok (shared.account fromAddr)) shared
        { position with
          phase := .asked fromAddr (shared.account fromAddr) }
  | read {fromAddr : Address} {nonce : Nat} {cache : Lru Address Nat}
      (asked : position.phase = .asked fromAddr nonce)
      (size : cache.size = shared.nonceCache.size)
      (same : cache.value = shared.nonceCache.value) :
      NonceStep creates worker shared position (.cacheGet fromAddr)
        (shared.nonceCache.value fromAddr)
        { shared with nonceCache := cache }
        { position with
          phase := .read fromAddr (NonceCache.next nonce
            (shared.nonceCache.value fromAddr)) }
  | added {fromAddr : Address} {nonce : Nat}
      (read : position.phase = .read fromAddr nonce) :
      NonceStep creates worker shared position (.cacheAdd fromAddr nonce) ()
        { shared with nonceCache := shared.nonceCache.add fromAddr nonce }
        { position with
          phase := .idle
          hands := (fromAddr, nonce) :: position.hands }
  | removed {fromAddr : Address} (monitors : creates = none)
      (ready : position.Ready creates) :
      NonceStep creates worker shared position (.cacheRemove fromAddr) ()
        { shared with nonceCache := shared.nonceCache.remove fromAddr }
        position
  | inserted {mTx : MonitoredTx H} {changes : List (ClaimWrite H)}
      (now : Nat) (allowed : position.allowed creates (.addClaimTx mTx))
      (opened : shared.dbTx worker = some changes) :
      NonceStep creates worker shared position (.addClaimTx mTx) (.ok ())
        (shared.setDbTx worker (some (changes ++ [.add mTx now])))
        { position with written := true }
  | insertFailed {mTx : MonitoredTx H} {err : String}
      (allowed : position.allowed creates (.addClaimTx mTx)) :
      NonceStep creates worker shared position (.addClaimTx mTx) (.error err)
        (shared.setDbTx worker none) { position with hands := [] }
  | updated {mTx : MonitoredTx H} {changes : List (ClaimWrite H)}
      (now : Nat) (allowed : position.allowed creates (.updateClaimTx mTx))
      (opened : shared.dbTx worker = some changes) :
      NonceStep creates worker shared position (.updateClaimTx mTx) (.ok ())
        (shared.setDbTx worker (some (changes ++ [.update mTx now])))
        (position.track (.updateClaimTx mTx) (.ok ()))
  | updateFailed {mTx : MonitoredTx H} {err : String}
      (allowed : position.allowed creates (.updateClaimTx mTx)) :
      NonceStep creates worker shared position (.updateClaimTx mTx)
        (.error err) (shared.setDbTx worker none)
        (position.track (.updateClaimTx mTx) (.error err))

variable {creates : Option Address} {worker : ClaimWorker}
  {shared : ClaimShared H} {position : NoncePosition H}

private theorem exec_cases (answers : CallAnswers H) (worker : ClaimWorker)
    (shared : ClaimShared H) (changes : List (ClaimWrite H)) :
    (∃ err, shared.exec answers worker changes =
      (.error err, shared.setDbTx worker none)) ∨
      ∃ before, shared.dbTx worker = some before ∧
        shared.exec answers worker changes =
          (.ok (), shared.setDbTx worker (some (before ++ changes))) := by
  rw [exec]
  split
  · exact .inl ⟨_, rfl⟩
  · next found => exact .inl ⟨_, by rw [setDbTx_self found]⟩
  · next before _ found => exact .inr ⟨before, found, rfl⟩

private theorem nonceStep_commit (answers : CallAnswers H)
    (closable : position.Closable creates) :
    NonceStep creates worker shared position .commit
      (shared.commit answers worker).1 (shared.commit answers worker).2
      position.closed := by
  rw [ClaimShared.commit]
  split
  · exact .commitFailed closable
  · next found =>
    have aborted : NonceStep creates worker shared position .commit
        (.error abortedText) (shared.setDbTx worker none) position.closed :=
      .commitFailed closable
    rw [setDbTx_self found] at aborted
    exact aborted
  · next found => exact .committed closable found

theorem nonceStep_of_serve (worker : ClaimWorker) (shared : ClaimShared H)
    (answers : CallAnswers H) (call : ClaimCall H)
    (allowed : position.allowed creates call) :
    NonceStep creates worker shared position call
      (shared.serve answers worker call).1
      (shared.serve answers worker call).2
      (position.track call (shared.serve answers worker call).1) := by
  cases call with
  | beginDBTransaction =>
    rw [serve]
    split
    · exact .opened none (.inl rfl) allowed
    · exact .opened (some []) (.inr rfl) allowed
  | commit => exact nonceStep_commit answers allowed
  | rollback => exact .rolledBack allowed
  | getDepositsFromOtherL2ToClaim => exact .quiet
  | getLatestTrustedGERByDeposit => exact .quiet
  | getPendingDepositsToClaim => exact .quiet
  | getClaimProofForCompressed => exact .quiet
  | getDepositByDepositID => exact .quiet
  | getClaimTxsByStatus statuses rollupID =>
    obtain ⟨monitors, rfl, ready⟩ := allowed
    rw [serve, orFault]
    split
    · exact .quiet
    · exact .listed answers.listed_perm monitors ready
  | ignoreDeposit depositID =>
    rw [serve]
    rcases exec_cases answers worker shared [] with
      ⟨err, failed⟩ | ⟨before, opened, done⟩
    · rw [failed]
      exact .aborted allowed
    · rw [done, List.append_nil, setDbTx_self opened]
      exact .quiet
  | addClaimTx mTx =>
    rw [serve]
    rcases exec_cases answers worker shared
        [.add mTx answers.now] with
      ⟨err, failed⟩ | ⟨before, opened, done⟩
    · rw [failed]
      exact .insertFailed allowed
    · rw [done]
      exact .inserted answers.now allowed opened
  | updateClaimTx mTx =>
    rw [serve]
    rcases exec_cases answers worker shared
        [.update mTx answers.now] with
      ⟨err, failed⟩ | ⟨before, opened, done⟩
    · rw [failed]
      exact .updateFailed allowed
    · rw [done]
      exact .updated answers.now allowed opened
  | l1BlockNumber => exact .quiet
  | l1BlockByNumber => exact .quiet
  | buildSendClaim => exact .quiet
  | estimateGas => exact .quiet
  | nonceAt fromAddr =>
    rw [serve, orFault]
    split
    · exact .quiet
    · exact .asked allowed.1 allowed.2
  | checkTxWasMined => exact .quiet
  | transactionByHash => exact .quiet
  | suggestGasPrice => exact .quiet
  | signer => exact .quiet
  | sendTransaction => exact .quiet
  | isClaimed => exact .quiet
  | cacheGet fromAddr =>
    obtain ⟨nonce, asked⟩ := allowed
    rw [serve]
    cases found : shared.nonceCache.get fromAddr with
    | none =>
      have missing := Lru.get_eq_none found
      have read : NonceStep creates worker shared position
          (.cacheGet fromAddr) _ { shared with
            nonceCache := shared.nonceCache } _ :=
        .read asked rfl rfl
      rw [missing] at read
      simpa [NoncePosition.track, asked] using read
    | some entry =>
      obtain ⟨value, cache⟩ := entry
      obtain ⟨here, size, same⟩ := Lru.get_eq_some found
      have read : NonceStep creates worker shared position
          (.cacheGet fromAddr) _ { shared with nonceCache := cache } _ :=
        .read asked size same
      rw [here] at read
      simpa [NoncePosition.track, asked] using read
  | cacheAdd fromAddr nonce => exact .added allowed
  | cacheRemove fromAddr => exact .removed allowed.1 allowed.2

end BridgeService
