import EngineNode.Chain

/-!
# Synchronisation requests

The downloader records what it is asked to fetch. A sync stays in progress until it is given
another target; an extension must build on the target.
-/

namespace EngineNode

/-- A request to fetch blocks. -/
inductive SyncRequest where
  | sync (mode : SyncMode) (head : Hash) (finalized : Option Hash)
  | extend (mode : SyncMode) (head : Hash)
deriving DecidableEq

/-- Why a request is refused. -/
inductive DownloadError where
  | rejected (head : Hash)
  | noSyncInProgress
  | notAnExtension (head target : Hash)
deriving DecidableEq

def DownloadError.message : DownloadError → String
  | .rejected head => "sync towards " ++ Hex.text head.toList ++ " rejected"
  | .noSyncInProgress => "no sync in progress"
  | .notAnExtension head target =>
    "head " ++ Hex.text head.toList ++ " does not extend sync target " ++ Hex.text target.toList

/-- The requests made so far, the oldest first, and the header that is fetched. -/
structure Downloader where
  target : Option Header := none
  requests : List SyncRequest := []
deriving DecidableEq

namespace Downloader

/-- Starts a sync or gives it another target. A downloader that injects failures refuses. -/
def sync (d : Downloader) (injectFailures : Bool) (mode : SyncMode) (head : Header)
    (finalized : Option Header) : Except DownloadError Downloader :=
  if injectFailures then .error (.rejected head.hash)
  else
    .ok { target := some head
          requests := d.requests ++ [.sync mode head.hash (finalized.map Header.hash)] }

/-- Extends the sync in progress by one block. -/
def extend (d : Downloader) (mode : SyncMode) (head : Header) : Except DownloadError Downloader :=
  match d.target with
  | none => .error .noSyncInProgress
  | some target =>
    if target.hash = head.parentHash then
      .ok { target := some head, requests := d.requests ++ [.extend mode head.hash] }
    else .error (.notAnExtension head.hash target.hash)

end Downloader

/-- A block that was found to be bad while fetching the chain of `origin`. -/
structure BadBlock where
  invalid : Header
  origin : Header
deriving DecidableEq

end EngineNode
