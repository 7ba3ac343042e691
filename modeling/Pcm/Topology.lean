import Mathlib.Data.List.Basic

/-!
# The system topology tree

The tree of sockets, cores and hardware threads that the visitors walk through
(`topology.h:63-505`). A core is only ever made together with its first thread
(`SystemRoot::addThread`), and that thread gives the core its ids.
-/

namespace Pcm.Topology

/-- The ids of `TopologyEntry` that the tree uses. -/
structure TopologyEntry where
  thread_id : Int
  core_id : Int
  module_id : Int
  tile_id : Int
  die_id : Int
  die_grp_id : Int
  socket_id : Int
  socket_unique_core_id : Int
  deriving DecidableEq, Repr

structure HyperThread where
  osID : Int
  te : TopologyEntry
  deriving DecidableEq, Repr

def HyperThread.threadID (ht : HyperThread) : Int := ht.te.thread_id

structure Core where
  /-- `threads_.front()` -/
  front : HyperThread
  others : List HyperThread
  deriving DecidableEq, Repr

namespace Core

def threads (c : Core) : List HyperThread := c.front :: c.others

def coreID (c : Core) : Int := c.front.te.core_id

def moduleID (c : Core) : Int := c.front.te.module_id

def tileID (c : Core) : Int := c.front.te.tile_id

def dieID (c : Core) : Int := c.front.te.die_id

def dieGroupID (c : Core) : Int := c.front.te.die_grp_id

def socketID (c : Core) : Int := c.front.te.socket_id

def socketUniqueCoreID (c : Core) : Int := c.front.te.socket_unique_core_id

end Core

/-- `ServerUncore` or `ClientUncore` -/
inductive UncoreKind
  | server
  | client
  deriving DecidableEq, Repr

structure Socket where
  socketID : Int
  cores : List Core
  uncore : UncoreKind
  deriving DecidableEq, Repr

structure SystemRoot where
  sockets : List Socket
  offlinedThreadsAtStart : List HyperThread
  deriving DecidableEq, Repr

end Pcm.Topology
