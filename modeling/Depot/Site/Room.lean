import Depot.Health
import Depot.Site.Records

/-!
# Room

A file is charged to the depot from the moment its transfer is queued: first its estimate, as a
reservation, then its size. When there is too little room, files are evicted that may be: their unlock
time has passed, they are not reserved, and no live job refers to them. The one unlocked first goes
first, and no more go than are needed.

The bytes of an evicted file are removed only from within the cache root, and never along a path that
climbs.
-/

namespace Depot

open Act Time

/-- The free room of a site. -/
def Site.freeKb (s : Site) : Int := freeRoom s.settings.limitKb.toNat s.account.used

/-- Whether a site has the room that is asked for; whoever asks for all that can be had has never
enough. -/
def Site.hasRoom (s : Site) : Option UInt64 → Bool
  | none => false
  | some kb => signed64 kb.toNat ≤ s.freeKb

/-- The health of a site. -/
def Site.health (s : Site) : Health :=
  .evaluate s.settings.limitKb.toNat s.account.used s.settings.marginKb.toNat

/-- Whether the bytes at a location may be removed from within a cache root. -/
def Path.isRemovable (cacheRoot location : String) : Bool :=
  (Path.ofString location).isWithin (Path.ofString cacheRoot) && !(Path.ofString location).climbs

namespace Room

/-- What an eviction has done. -/
structure Reclaim where
  filesEvicted : Nat := 0
  freedKb : Nat := 0
  /-- Whether there is the room that was asked for. -/
  satisfied : Bool := false
  deriving DecidableEq

/-! ### Eviction -/

/-- Whether one of the requests is a live job. -/
def anyLive : List RequestId → Act Bool
  | [] => return false
  | r :: rest => do
    match ← Records.loadJob r with
    | some job => if job.status.isLive then return true else anyLive rest
    | none => anyLive rest

/-- Whether a live job refers to a file. -/
def isPinned (id : FileId) : Act Bool := do
  anyLive (← Records.findReferrers id)

/-- Remove the bytes of a file that has been dropped, if they may be removed. -/
def eraseBytes (f : FileRecord) : Act Unit :=
  modify fun s =>
    match f.location with
    | none => s
    | some location =>
      if Path.isRemovable s.settings.cacheRoot location then
        { s with disk := (s.disk.remove location).1 }
      else s

/-- Evict a file, unless somebody else was faster; the kilobytes that it leaves free. -/
def evictFile (id : FileId) : Act (Option Nat) := do
  match ← Records.deleteFile id with
  | none => return none
  | some dropped =>
    eraseBytes dropped
    modify fun s => { s with account := s.account.discharge dropped.chargedKb }
    note (.evicted dropped (← now) (← get).inventory)
    return some dropped.chargedKb

/-- Evict files of a list, in its order, until there is enough room. -/
def evictAmong (required : Option UInt64) : List FileRecord → Reclaim → Act Reclaim
  | [], done => return done
  | f :: rest, done => do
    if (← get).hasRoom required then return done
    if (← get).account.isReserved f.fileId then evictAmong required rest done
    else if ← isPinned f.fileId then evictAmong required rest done
    else
      match ← evictFile f.fileId with
      | none => evictAmong required rest done
      | some kb =>
        evictAmong required rest
          { done with filesEvicted := done.filesEvicted + 1, freedKb := done.freedKb + kb }

/-- Evict files until there is the room asked for, or all that may be evicted. -/
def evict (required : Option UInt64) : Act Reclaim := do
  let candidates ← Records.findUnlocked (← now)
  let done ← evictAmong required candidates {}
  return { done with satisfied := required.isNone || (← get).hasRoom required }

/-- Make room of so many kilobytes. -/
def reclaim (kb : UInt64) : Act Reclaim := evict (some kb)

/-- Evict all that may be evicted. -/
def purge : Act Reclaim := evict none

/-! ### Charging -/

/-- Reserve room for a file, evicting others if need be. A file that has a reservation keeps it. -/
def reserve (id : FileId) (kb : UInt64) : Act Unit := do
  if (← get).account.isReserved id then return
  if !(← get).hasRoom (some kb) then
    let done ← evict (some kb)
    if !done.satisfied then
      throw (.capacityExceeded kb (← get).freeKb)
  modify fun s => { s with account := s.account.reserve id kb }

/-- Keep the record of a file that has arrived, and charge its size in place of its reservation. -/
def commit (f : FileRecord) : Act Unit := do
  match f.sizeKb with
  | none => throw (.inconsistentState ("commit of " ++ f.fileId.text ++ " without a size"))
  | some kb =>
    Records.saveFile f
    modify fun s => { s with account := s.account.commit f.fileId kb }

/-- Give back the reservation of a file. -/
def release (id : FileId) : Act Unit :=
  modify fun s => { s with account := s.account.release id }

end Room

end Depot
