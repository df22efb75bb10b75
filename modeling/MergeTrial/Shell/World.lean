import MergeTrial.FileTree.Machine
import MergeTrial.Shell.Raw

/-! What processes share: the machine, the files and pipes that are open, and the time. Time is
counted in milliseconds, and only waiting takes any. -/

namespace MergeTrial.Shell

/-- A text that went into a pipe: when, and by which group of processes. -/
structure Chunk where
  time : Nat
  group : Nat
  text : Raw
  deriving Inhabited

/-- What went into a pipe, the last first, and when groups of processes were done with it. -/
structure Pipe where
  chunks : List Chunk
  closings : List (Nat × Nat)
  deriving Inhabited

namespace Pipe

def inOrder (p : Pipe) : List Chunk := p.chunks.reverse.mergeSort fun a b => decide (a.time ≤ b.time)

def text (p : Pipe) : Raw := p.inOrder.flatMap Chunk.text

def closedAt (p : Pipe) : Nat := p.closings.foldl (fun time closing => max time closing.2) 0

def retract (group time : Nat) (p : Pipe) : Pipe where
  chunks := p.chunks.filter fun chunk => chunk.group != group || decide (chunk.time ≤ time)
  closings := p.closings.map fun closing =>
    if closing.1 = group then (group, min time closing.2) else closing

def readyAt (p : Pipe) (count : Nat) : Nat :=
  let step (state : Nat × Nat) (chunk : Chunk) : Nat × Nat :=
    if state.1 < count then (state.1 + chunk.text.length, max state.2 chunk.time) else state
  let (found, time) := p.inOrder.foldl step (0, 0)
  if found < count then max time p.closedAt else time

end Pipe

inductive Channel where
  | file (location : Location) (append : Bool)
  | pipe (number : Nat)
  | device (special : Special)
  deriving Inhabited

/-- An open file, which processes may share. -/
structure Stream where
  channel : Channel
  offset : Nat
  readable : Bool
  writable : Bool
  deriving Inhabited

/-- The open files of a process, by their numbers. -/
abbrev Descriptors := List (Nat × Nat)

structure World where
  machine : Machine
  streams : Array Stream
  pipes : Array Pipe
  clock : Nat
  deadline : Nat
  /-- How many commands may still be carried out; a script that needs more is taken to run without
  end. -/
  credit : Nat
  processes : Nat
  -- the group of processes that runs now: a job, or zero for what is waited for
  group : Nat
  -- signals that were sent and are not delivered yet: the process and the signal
  signals : List (Nat × Nat)
  deriving Inhabited

namespace World

/-- The world in which a machine starts a process that may run so long. -/
def start (machine : Machine) (deadline : Nat) : World :=
  ⟨machine, #[], #[], 0, deadline, 200000, 4000, 0, []⟩

def addStream (stream : Stream) : StateM World Nat :=
  modifyGet fun w => (w.streams.size, { w with streams := w.streams.push stream })

def addPipe : StateM World (Nat × Nat) := do
  let number ← modifyGet fun w => (w.pipes.size, { w with pipes := w.pipes.push ⟨[], []⟩ })
  let reader ← addStream ⟨.pipe number, 0, true, false⟩
  let writer ← addStream ⟨.pipe number, 0, false, true⟩
  return (reader, writer)

def addText (text : Raw) : StateM World Nat := do
  let number ← modifyGet fun w =>
    (w.pipes.size, { w with pipes := w.pipes.push ⟨[⟨0, 0, text⟩], []⟩ })
  addStream ⟨.pipe number, 0, true, false⟩

def newProcess : StateM World Nat :=
  modifyGet fun w => (w.processes + 1, { w with processes := w.processes + 1 })

def wait (time : Nat) : StateM World Unit := modify fun w => { w with clock := max w.clock time }

def closePipes (table : Descriptors) : StateM World Unit :=
  table.forM fun entry => modify fun w =>
    match w.streams[entry.2]? with
    | some ⟨.pipe number, _, _, true⟩ =>
      { w with pipes := w.pipes.modify number fun p =>
                { p with closings := (w.group, w.clock) :: p.closings } }
    | _ => w

def stopGroup (group : Nat) : StateM World Unit :=
  modify fun w => { w with pipes := w.pipes.map (Pipe.retract group w.clock) }

def patched (content : Bytes) (offset : Nat) (more : Bytes) : Bytes :=
  content.take offset ++ List.replicate (offset - content.length) 0 ++ more
    ++ content.drop (offset + more.length)

def writeStream (number : Nat) (text : Raw) : StateM World (Except FileFault Unit) := do
  let w ← get
  match w.streams[number]? with
  | none => return .error .badDescriptor
  | some stream =>
    if !stream.writable then return .error .badDescriptor
    else match stream.channel with
      | .pipe pipe =>
        set { w with pipes := w.pipes.modify pipe fun p =>
                { p with chunks := ⟨w.clock, w.group, text⟩ :: p.chunks } }
        return .ok ()
      | .device special => return Machine.feed special (Raw.toBytes text)
      | .file location append =>
        match w.machine.root.at? location with
        | some (.file content mode) =>
          let offset := if append then content.length else stream.offset
          let content := if offset = content.length then content ++ Raw.toBytes text
            else patched content offset (Raw.toBytes text)
          let moved := { stream with offset := offset + text.length }
          set { w with
            machine := w.machine.put location (some (.file content mode))
            streams := w.streams.setIfInBounds number moved }
          return .ok ()
        | _ => return .ok ()

def pending (number : Nat) : StateM World (Except FileFault Raw) := do
  let w ← get
  match w.streams[number]? with
  | none => return .error .badDescriptor
  | some stream =>
    if !stream.readable then return .error .badDescriptor
    else match stream.channel with
      | .pipe pipe => return .ok ((((w.pipes[pipe]?).map Pipe.text).getD []).drop stream.offset)
      | .device .terminal => return .error .noDevice
      | .device _ => return .ok []
      | .file location _ =>
        match w.machine.root.at? location with
        | some (.file content _) => return .ok ((Raw.ofBytes content).drop stream.offset)
        | some (.dir ..) => return .error .isDirectory
        | _ => return .ok []

def advance (number count : Nat) : StateM World Unit := do
  let w ← get
  match w.streams[number]? with
  | none => return ()
  | some stream =>
    let moved := { stream with offset := stream.offset + count }
    set { w with streams := w.streams.setIfInBounds number moved }
    match stream.channel with
    | .pipe pipe =>
      match w.pipes[pipe]? with
      | some p => wait (p.readyAt moved.offset)
      | none => return ()
    | _ => return ()

def awaitEnd (number : Nat) : StateM World Unit := do
  let w ← get
  match (w.streams[number]?).map Stream.channel with
  | some (.pipe pipe) => wait (((w.pipes[pipe]?).map Pipe.closedAt).getD 0)
  | _ => return ()

def readStream (number : Nat) : StateM World (Except FileFault Raw) := do
  match ← pending number with
  | .error fault => return .error fault
  | .ok text =>
    advance number text.length
    awaitEnd number
    return .ok text

def openInput (table : Descriptors) (path : Path) : StateM World (Except FileFault Nat) := do
  match (← get).machine.resolve path with
  | .error fault => return .error fault
  | .ok place =>
    match place.node with
    | none => return .error .missing
    | some (.special .terminal) => return .error .noDevice
    | some (.special (.descriptor n)) =>
      match table.lookup n with
      | some stream => return .ok stream
      | none => return .error .missing
    | some (.special special) => return .ok (← addStream ⟨.device special, 0, true, false⟩)
    | some node =>
      if node.allows .read then
        return .ok (← addStream ⟨.file place.location false, 0, true, false⟩)
      else return .error .denied

def openOutput (table : Descriptors) (path : Path) (truncate append readable : Bool) :
    StateM World (Except FileFault Nat) := do
  let w ← get
  match w.machine.openForWriting path with
  | .error fault => return .error fault
  | .ok (.special (.descriptor n)) =>
    match table.lookup n with
    | some stream => return .ok stream
    | none => return .error .missing
  | .ok (.special special) => return .ok (← addStream ⟨.device special, 0, readable, true⟩)
  | .ok (.file location content mode) =>
    set { w with
      machine := w.machine.put location (some (.file (if truncate then [] else content) mode)) }
    return .ok (← addStream ⟨.file location append, 0, readable, true⟩)

def onMachine {α : Type} (action : StateM Machine α) : StateM World α :=
  modifyGet fun w =>
    let (result, machine) := (action.run w.machine).run
    (result, { w with machine := machine })

end World
end MergeTrial.Shell
