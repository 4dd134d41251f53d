import ModMp.UiTable

/-!
# The music browser

The panes of the browser stand in a row, each with a table and a query. A click on a row changes
the selection of its pane, and then the panes to its right are cleared and loaded again, one after
the other, each with the ids that are selected in all panes. The objects of the rows are of any
type, with their ids given as a function, and they come to a pane at any time after its load. What
a query does with the parameters of its load is in `MusicQuery`; the loads of the last action are
kept. Right clicks and the dialog that asks for the type of a new pane are left out.
-/

namespace ModMp

inductive PaneKind
  | artist
  | album
  | song
  deriving DecidableEq

namespace PaneKind

def name : PaneKind → String
  | .artist => "artist"
  | .album => "album"
  | .song => "song"

def queryType : PaneKind → Word
  | .artist => ⟨text "artists", by decide⟩
  | .album => ⟨text "albums", by decide⟩
  | .song => ⟨text "songs", clear_songs⟩

def nameColumn : PaneKind → Column
  | .artist => ⟨⟨.unset, text "artist_name", artistName_ne_nil⟩, false⟩
  | .album => ⟨⟨.unset, text "album_name", albumName_ne_nil⟩, false⟩
  | .song => ⟨⟨.unset, text "song_name", by decide⟩, false⟩

end PaneKind

namespace QueryParameters

/-- The list under the type without its last letter and `_id`. -/
def ids (p : QueryParameters) : PaneKind → List ℕ
  | .artist => p.artistId
  | .album => p.albumId
  | .song => p.songId

def setIds (p : QueryParameters) (kind : PaneKind) (ids : List ℕ) : QueryParameters :=
  match kind with
  | .artist => { p with artistId := ids }
  | .album => { p with albumId := ids }
  | .song => { p with songId := ids }

def wipeIds (p : QueryParameters) : QueryParameters :=
  { p with artistId := [], albumId := [], songId := [] }

@[simp] theorem ids_setIds (p : QueryParameters) (kind kind' : PaneKind) (ids : List ℕ) :
    (p.setIds kind ids).ids kind' = if kind = kind' then ids else p.ids kind' := by
  cases kind <;> cases kind' <;> rfl

@[simp] theorem ids_wipeIds (p : QueryParameters) (kind : PaneKind) : p.wipeIds.ids kind = [] := by
  cases kind <;> rfl

end QueryParameters

structure Pane (ρ : Type) where
  kind : PaneKind
  table : Table ρ
  parameters : QueryParameters

/-- The panes from the left to the right, and the parameters of each load of the last action. -/
structure Browser (ρ : Type) where
  panes : List (Pane ρ)
  loads : List (ℕ × QueryParameters)

/-- A new pane, objects for a pane, and a left click on a row of a pane. -/
inductive BrowserAction (ρ : Type)
  | addTable (kind : PaneKind)
  | receive (pane : ℕ) (data : List (DataElem ρ))
  | click (pane row : ℕ)

variable {ρ : Type}

/-- The splice of an id that is taken back, or the push of a new one. -/
def passId (ids : List ℕ) (selected : Bool) (id : ℕ) : List ℕ :=
  if selected then ids ++ [id] else ids.erase id

namespace Browser

def addIds (panes : List (Pane ρ)) (p : QueryParameters) : QueryParameters :=
  panes.foldl (fun p pane => p.setIds pane.kind (p.ids pane.kind ++ pane.table.selectedIds)) p

/-- The parameters of a new pane, before the ids. -/
def newParameters (kind : PaneKind) : QueryParameters where
  type := kind.queryType
  numResults := 750
  sortBy := .string (text (kind.name ++ "_name"))
  artistId := []
  albumId := []
  songId := []
  sourceId := []
  albumName := some []
  artistName := some []
  songTitle := some []
  sourceType := none
  outputType := none
  objects := [kind.queryType.letters]

def addTable (b : Browser ρ) (kind : PaneKind) : Browser ρ :=
  let parameters := addIds b.panes (newParameters kind)
  { panes := b.panes ++ [⟨kind, ⟨[kind.nameColumn], [], []⟩, parameters⟩]
    loads := [(b.panes.length, parameters)] }

def receive (b : Browser ρ) (j : ℕ) (data : List (DataElem ρ)) : Browser ρ :=
  { panes := b.panes.modify j (fun pane => { pane with table := (pane.table.addRows data).1 })
    loads := [] }

/-- One round of the loop of `clickRow`. -/
def loadPane (b : Browser ρ) (passingType : PaneKind) (selected : Bool) (passingId j : ℕ)
    (currTable : Pane ρ) : Browser ρ :=
  let selections := passId (currTable.parameters.ids passingType) selected passingId
  let currTable := { currTable with
    table := currTable.table.clear
    parameters := (currTable.parameters.setIds passingType selections).wipeIds }
  let parameters := addIds (b.panes.set j currTable) currTable.parameters
  { panes := b.panes.set j { currTable with parameters := parameters }
    loads := b.loads ++ [(j, parameters)] }

/-- The loop of `clickRow` from the pane `j` on. -/
def loadNext (b : Browser ρ) (passingType : PaneKind) (selected : Bool) (passingId j : ℕ) :
    Browser ρ :=
  if h : j < b.panes.length then
    loadNext (b.loadPane passingType selected passingId j b.panes[j]) passingType selected passingId
      (j + 1)
  else b
termination_by b.panes.length - j
decreasing_by
  simp only [loadPane, List.length_set]
  omega

/-- A left click on the row of an object. -/
def clickRow (idOf : PaneKind → ρ → ℕ) (b : Browser ρ) (k : ℕ) (tableP : Pane ρ)
    (dataElem : DataElem ρ) : Option (Browser ρ) :=
  (tableP.table.selectRow dataElem.tableIndex).map (fun (isSelected, table) =>
    let selected := decide (isSelected = 0)
    let passingId := idOf tableP.kind dataElem.row
    let selectedIds := passId table.selectedIds selected passingId
    let tableP := { tableP with table := { table with selectedIds := selectedIds } }
    loadNext { panes := b.panes.set k tableP, loads := [] } tableP.kind selected passingId (k + 1))

def next (idOf : PaneKind → ρ → ℕ) (b : Browser ρ) : BrowserAction ρ → Option (Browser ρ)
  | .addTable kind => some (b.addTable kind)
  | .receive j data => some (b.receive j data)
  | .click k row =>
      b.panes[k]?.bind (fun pane =>
        pane.table.rows[row]?.bind (fun r => b.clickRow idOf k pane r.dataElem))

def empty : Browser ρ := ⟨[], []⟩

end Browser

end ModMp
