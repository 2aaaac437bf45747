import ArenaLab.ByteStores
import ArenaLab.GameRecord
import ArenaLab.Runs

/-! The viewer's side of its pipe: `receive` collects messages in a fixed buffer,
a length first and then as many bytes, over calls that each do a bounded number
of reads. -/

namespace ArenaLab

/-- What `message` changes of a `viewer_t`. -/
structure ViewerState where
  view : GameView
  ready : Bool
  face_x : ℤ
  face_y : ℤ
  updates : UInt32
  message : String

structure Viewer extends ViewerState where
  buffer : List UInt8
  used : ℕ
  wanted : ℕ

def emptyView : GameView where
  «match» := Vector.replicate 16 0
  session := Vector.replicate 16 0
  slot := 0
  result := 0
  sequence := 0
  tick := 0
  players := fun _ => ⟨0, 0, 0, 0, 0, 0, false⟩

def viewerStart : ViewerState := ⟨emptyView, false, 1, 0, 0, "Connected"⟩

def viewerBoot : Viewer := { viewerStart with buffer := List.replicate 84 0, used := 0, wanted := 0 }

def errorMagic : List UInt8 := [0x4C, 0x47, 0x52, 0x45]

def gameResultName (result : UInt8) : String := gameResults.getD result.toNat "UNKNOWN_RESULT"

/-- `view.players[slot]`. -/
def GameView.playerAt (v : GameView) (slot : UInt8) : ViewPlayer := v.players (Fin.ofNat 2 slot.toNat)

/-- The view is of the game that is shown, and not older. -/
def GameView.continues (view next : GameView) : Bool :=
  next.match = view.match && next.session = view.session && next.slot = view.slot &&
    view.tick ≤ next.tick && view.sequence ≤ next.sequence

def ViewerState.facing (v : ViewerState) (next : GameView) : ℤ × ℤ :=
  if v.ready then
    let dx := (next.playerAt next.slot).x_mm - (v.view.playerAt next.slot).x_mm
    let dy := (next.playerAt next.slot).y_mm - (v.view.playerAt next.slot).y_mm
    if dx ≠ 0 then (if 0 < dx then 1 else -1, 0)
    else if dy ≠ 0 then (0, if 0 < dy then 1 else -1)
    else (v.face_x, v.face_y)
  else (if next.slot = 0 then 1 else -1, v.face_y)

/-- `message`, with no result where it returns false. -/
def viewerMessage (v : ViewerState) (data : List UInt8) : Option ViewerState :=
  if data.length = 5 ∧ data.take 4 = errorMagic then
    if data.getD 4 0 ≠ 7 then none else some { v with message := "Waiting for both players" }
  else
    match gameViewDecode data with
    | none => none
    | some next =>
      if v.ready && !v.view.continues next then none
      else some
        { view := next
          ready := true
          face_x := (v.facing next).1
          face_y := (v.facing next).2
          updates := v.updates + 1
          message := gameResultName next.result }

/-- What `read` answers. -/
inductive ReadAnswer
  | interrupted
  | again
  | failed
  | data (bytes : List UInt8)

/-- Where `receive` returns -1. -/
inductive ReceiveEnd
  | failed
  | closed
  | length
  | message
  deriving DecidableEq

/-- An iteration of `receive`: where it reads to, what it reads, and the payload that
`message` gets, with its answer. -/
structure ViewerRead where
  used : ℕ
  wanted : ℕ
  bytes : List UInt8
  passed : Option (List UInt8 × Bool)

/-- The viewer between and inside the calls of `receive`. -/
structure Viewing where
  viewer : Viewer
  iteration : Option ℕ
  ended : Option ReceiveEnd

inductive ViewerAction
  | receive
  | read (answer : ReadAnswer)

def Viewing.boot : Viewing := ⟨viewerBoot, none, none⟩

def Viewer.want (v : Viewer) : Viewer := if v.wanted = 0 then { v with wanted := 4 } else v

/-- A difference of two `size_t`. -/
def sizeSub (m n : ℕ) : ℕ := (m + 18446744073709551616 - n) % 18446744073709551616

def Viewer.fill (v : Viewer) (bytes : List UInt8) : Viewer :=
  { v with buffer := ByteStores.put v.buffer (v.used, bytes), used := v.used + bytes.length }

/-- The length in the first four bytes of the buffer. -/
def viewerLength (buffer : List UInt8) : UInt32 :=
  ((buffer.getD 0 0).toUInt32 <<< 24) ||| ((buffer.getD 1 0).toUInt32 <<< 16) |||
    ((buffer.getD 2 0).toUInt32 <<< 8) ||| (buffer.getD 3 0).toUInt32

def Viewer.payload (v : Viewer) : List UInt8 := (v.buffer.drop 4).take (v.wanted - 4)

/-- The loop goes on, or `receive` returns after its sixteenth iteration. -/
def Viewing.next (s : Viewing) (v : Viewer) : Viewing :=
  { s with viewer := v, iteration := s.iteration.bind (fun i => if i + 1 < 16 then some (i + 1) else none) }

def Viewing.return (s : Viewing) (v : Viewer) : Viewing := { s with viewer := v, iteration := none }

def Viewing.fail (s : Viewing) (v : Viewer) (e : ReceiveEnd) : Viewing :=
  { s with viewer := v, iteration := none, ended := some e }

/-- The rest of the iteration after a `read` that returned bytes. -/
def Viewing.collect (s : Viewing) (v : Viewer) : Option (List UInt8 × Bool) × Viewing :=
  if v.used ≠ v.wanted then (none, s.next v)
  else if v.wanted = 4 then
    if viewerLength v.buffer ≠ 80 ∧ viewerLength v.buffer ≠ 5 then (none, s.fail v .length)
    else (none, s.next { v with wanted := 4 + (viewerLength v.buffer).toNat })
  else
    match viewerMessage v.toViewerState v.payload with
    | none => (some (v.payload, false), s.fail v .message)
    | some shown =>
      (some (v.payload, true), s.next { v with toViewerState := shown, used := 0, wanted := 4 })

/-- An iteration; `read` returns no more than it was asked for. -/
def Viewing.read (s : Viewing) (answer : ReadAnswer) : Option (ViewerRead × Viewing) :=
  let v := s.viewer.want
  match answer with
  | .interrupted => some (⟨v.used, v.wanted, [], none⟩, s.next v)
  | .again => some (⟨v.used, v.wanted, [], none⟩, s.return v)
  | .failed => some (⟨v.used, v.wanted, [], none⟩, s.fail v .failed)
  | .data bytes =>
    if sizeSub v.wanted v.used < bytes.length then none
    else if bytes = [] then some (⟨v.used, v.wanted, [], none⟩, s.fail v .closed)
    else some (⟨v.used, v.wanted, bytes, (s.collect (v.fill bytes)).1⟩, (s.collect (v.fill bytes)).2)

/-- The program calls `receive` until it returns -1. -/
def viewerNext (s : Viewing) (a : ViewerAction) : Option (Option ViewerRead × Viewing) :=
  match a, s.iteration, s.ended with
  | .receive, none, none => some (none, { s with iteration := some 0 })
  | .read answer, some _, none => (s.read answer).map (fun r => (some r.1, r.2))
  | _, _, _ => none

abbrev ViewerStep := Runs.Induced viewerNext

end ArenaLab
