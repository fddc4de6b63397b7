import NpuBroker.Claim.Attempt
import NpuBroker.Plan

/-!
# Claims

A claim is a node whose lock the caller holds. A unit can be claimed when its own node is free
and so is every node of its device that shares a PE with it. The others are probed first, each by
taking its lock and giving it back at once; a node that has vanished is held by nobody.

A plan is resolved group by group. What was claimed before a failure is given back.
-/
namespace NpuBroker

structure Claim where
  node : Node
  file : FileId
deriving DecidableEq

namespace Claim

/-- Claims one node, or finds it held. -/
def node? (n : Node) : Attempt (Except Fault (Option Claim)) :=
  .lock n.path fun
    | .error .notFound => .done (.error (.notFound n.name))
    | .error e => .done (.error (.host e))
    | .ok none => .done (.ok none)
    | .ok (some file) => .done (.ok (some ⟨n, file⟩))

/-- Whether somebody holds the node. -/
def held (n : Node) : Attempt (Except Fault Bool) := do
  match ← node? n with
  | .error (.notFound _) => return .ok false
  | .error f => return .error f
  | .ok none => return .ok true
  | .ok (some claim) => .unlock claim.file (.done (.ok false))

/-- Whether somebody holds one of the nodes. -/
def anyHeld : List Node → Attempt (Except Fault Bool)
  | [] => return .ok false
  | n :: ns => do
    match ← held n with
    | .ok false => anyHeld ns
    | answer => return answer

/-- The nodes to look at before `candidate` is claimed beside `claimed`. The nodes that overlap
what is already claimed are refused because of that, and say nothing about others. -/
def rivals (t : Topology) (claimed : List Claim) (candidate : Node) : List Node :=
  match t.device? candidate.id.device with
  | none => []
  | some d => (d.overlapping candidate).filter fun m => !claimed.any fun c => c.node.overlaps m

/-- Claims a candidate that can be claimed beside `claimed`. -/
def candidate? (t : Topology) (claimed : List Claim) (candidate : Node) :
    Attempt (Except Fault (Option Claim)) :=
  if claimed.any fun c => c.node.overlaps candidate then return .ok none
  else do
    match ← anyHeld (rivals t claimed candidate) with
    | .error f => return .error f
    | .ok true => return .ok none
    | .ok false => node? candidate

/-- Claims the first candidate that can be claimed. -/
def group? (t : Topology) (claimed : List Claim) :
    List Node → Attempt (Except Fault (Option Claim))
  | [] => return .ok none
  | n :: ns => do
    match ← candidate? t claimed n with
    | .ok none => group? t claimed ns
    | answer => return answer

/-- Gives claims back. -/
def releaseAll (claims : List Claim) : Attempt Unit := .unlockAll (claims.map Claim.file)

/-- What a group without a claim is called. -/
def groupName : List Node → String
  | [only] => only.name
  | _ => "candidates"

/-- Claims one candidate of each group beside `claimed`; `busy` are the groups left out. -/
def groups (t : Topology) (p : Plan) :
    List (List Node) → List Claim → List String → Attempt (Except Fault (List Claim × List String))
  | [], claimed, busy => return .ok (claimed, busy)
  | g :: gs, claimed, busy => do
    match ← group? t claimed g with
    | .error f =>
      releaseAll claimed
      return .error f
    | .ok (some claim) => groups t p gs (claimed ++ [claim]) busy
    | .ok none =>
      match p.policy with
      | .allOrNothing =>
        releaseAll claimed
        return .error (.busy p.request)
      | .bestEffort => groups t p gs claimed (busy ++ [groupName g])

/-- Claims what a plan asks for. -/
def resolve (t : Topology) (p : Plan) : Attempt (Except Fault (List Claim)) := do
  match ← groups t p p.groups [] [] with
  | .error f => return .error f
  | .ok ([], []) => return .error (.busy p.request)
  | .ok ([], busy) => return .error (.busy (",".intercalate busy))
  | .ok (claims, _) => return .ok claims

/-- Claims what is requested on a topology. -/
def find (t : Topology) (request : Request) : Attempt (Except Fault (List Claim)) :=
  match Plan.expand request t with
  | .error f => return .error f
  | .ok p => resolve t p

/-- The node with this name. -/
def lookup (t : Topology) (name : String) : Except Fault Node := do
  let id ← UnitId.ofText (Text.trimmed name)
  match (t.filter fun d => d.index = id.device).findSome? fun d => d.find? id with
  | none => throw (.notFound id.name)
  | some n => return n

/-- Claims the node with this name. -/
def openNode (t : Topology) (name : String) : Attempt (Except Fault Claim) :=
  match lookup t name with
  | .error f => return .error f
  | .ok n => do
    match ← find t (.explicit [n.id]) with
    | .error f => return .error f
    | .ok claims =>
      match claims.getLast? with
      | none => return .error (.busy n.name)
      | some claim =>
        releaseAll claims.dropLast
        return .ok claim

end Claim
end NpuBroker
