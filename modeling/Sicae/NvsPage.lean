import Sicae.Nvs
import Sicae.PowerCut

/-! # A page of the NVS partition

A page in the state ACTIVE: a table with two bits for each of its 126 entries, and the entries of 32
bytes.  A value takes a header entry, and a string the entries for its bytes behind it.  A value is
replaced by writing the new one behind all others and erasing the old one, and erasing only
changes the table.

The functions work on a `Page`, which has the flash, the fields that `load` computes from it, and
the writes made so far (`Page.log`), at any of which power may go (`flashMedium`).  What reading an
entry as a header gives when no header was written there is left open (`Misread`).

A function is `none` where an assertion or the check of an index fails. -/

namespace Sicae

open CString PowerCut

namespace NvsPage

/-! ### Items -/

/-- `Page::ENTRY_COUNT`. -/
def entryCount : ℕ := 126

/-- `Page::ENTRY_SIZE`. -/
def entrySize : ℕ := 32

/-- `Item::MAX_KEY_LENGTH`. -/
def maxKeyLength : ℕ := 15

/-- An entry of `crc32_le_table`. -/
def crc32LeTable (i : BitVec 32) : BitVec 32 :=
  (List.range 8).foldl (fun c _ => if c.getLsbD 0 then (c >>> 1) ^^^ 0xedb88320#32 else c >>> 1) i

/-- `esp_rom_crc32_le`. -/
def espRomCrc32Le (crc : BitVec 32) (buf : CStr) : BitVec 32 :=
  ~~~ buf.foldl (fun crc b => crc32LeTable ((crc ^^^ BitVec.ofNat 32 b.toNat) &&& 0xff#32) ^^^
    (crc >>> 8)) (~~~ crc)

/-- The two types of `ItemType` that the firmware stores. -/
inductive ItemType where
  | u8
  | sz
deriving DecidableEq, Repr

/-- The 8 bytes `data` of an `Item`. -/
inductive ItemData where
  | u8 (v : BitVec 8)
  | varLength (dataSize : ℕ) (dataCrc32 : BitVec 32)
deriving DecidableEq, Repr

/-- `Item`, with a `crc32` that fits; `chunkIndex` is always `CHUNK_ANY`. -/
structure Item where
  nsIndex : ℕ
  span : ℕ
  key : CStr
  data : ItemData
deriving DecidableEq, Repr

/-- `item.datatype`. -/
def Item.datatype (item : Item) : ItemType :=
  match item.data with
  | .u8 _ => .u8
  | .varLength .. => .sz

/-- `item.key` as the constructor fills it from a key. -/
def keyField (key : CStr) : CStr := key.take maxKeyLength

/-- The hash of an item in `HashList`: 24 bits of `calculateCrc32WithoutValue`. -/
def hash24 (nsIndex : ℕ) (key : CStr) : BitVec 32 :=
  let crc := espRomCrc32Le 0xffffffff#32 [Char.ofNat nsIndex]
  let crc := espRomCrc32Le crc
    (keyField key ++ List.replicate (maxKeyLength + 1 - (keyField key).length) '\x00')
  espRomCrc32Le crc ['\xff'] &&& 0xffffff#32

/-! ### The flash -/

/-- `EntryState`, two bits. -/
inductive EntryState where
  | empty
  | written
  | erased
  | illegal
deriving DecidableEq, Repr

/-- Programming the bits of a state over those of another: bits are only ever cleared. -/
def EntryState.program : EntryState → EntryState → EntryState
  | .empty, s => s
  | s, .empty => s
  | .written, .written => .written
  | .illegal, .illegal => .illegal
  | _, _ => .erased

/-- The 32 bytes of an entry: all bits set, a header, bytes of a string, or neither.  `headerBlank`
says whether the first four of its bytes are all 0xff. -/
inductive Entry where
  | blank
  | item (item : Item)
  | data (bytes : CStr)
  | torn (headerBlank : Bool)
deriving DecidableEq, Repr

/-- The first word is 0xffffffff. -/
def Entry.headerBlank : Entry → Bool
  | .blank => true
  | .item _ => false
  | .data bytes => bytes.take 4 = List.replicate 4 '\xff'
  | .torn b => b

/-- Programming an entry; over anything but a blank one it gives neither. -/
def Entry.program (old new : Entry) : Entry := if old = .blank then new else .torn false

/-- An entry whose programming has begun.  The first byte of a header is never 0xff. -/
def Entry.begun (headerBlank : Bool) : Entry → Entry
  | .data _ => .torn headerBlank
  | _ => .torn false

/-- The entry state table and the entries of a page. -/
structure Flash where
  state : ℕ → EntryState
  entry : ℕ → Entry

/-- An erased sector. -/
def Flash.blank : Flash := ⟨fun _ => .empty, fun _ => .blank⟩

/-- Entries `es` programmed from `index` on. -/
def Flash.program (f : Flash) (index : ℕ) (es : List Entry) : Flash :=
  { f with entry := fun k =>
      if index ≤ k ∧ k < index + es.length then
        (f.entry k).program (es.getD (k - index) .blank)
      else f.entry k }

/-- The states of the entries from `lo` up to `hi`. -/
def Flash.setStates (f : Flash) (lo hi : ℕ) (s : EntryState) : Flash :=
  { f with state := fun k => if lo ≤ k ∧ k < hi then (f.state k).program s else f.state k }

/-- A write of entries, or of a word of the table in which the states from `lo` up to `hi` change. -/
inductive FlashWrite where
  | entries (index : ℕ) (es : List Entry)
  | states (lo hi : ℕ) (s : EntryState)
deriving DecidableEq, Repr

/-- How far a write of entries got: the number of whole ones, and whether the next has begun. -/
structure Torn where
  whole : ℕ
  begun : Option Bool

/-- What a write leaves that power interrupts.  Entries are programmed in order; a word of the table
is programmed or not. -/
def Flash.torn : FlashWrite → Torn → Flash → Flash
  | .entries index es, t, f =>
      f.program index (es.take t.whole ++ ((es.drop t.whole).head?.bind fun e =>
        t.begun.map fun b => e.begun b).toList)
  | .states .., _, f => f

/-- The flash under its writes. -/
def flashMedium : Medium FlashWrite Torn Flash where
  write
    | .entries index es, f => f.program index es
    | .states lo hi s, f => f.setStates lo hi s
  torn := Flash.torn

/-- What `readEntry` finds in an entry in which no header was written, as an item with the result of
the comparison of its CRC, and as bytes. -/
structure Misread where
  item : Entry → Item × Bool
  bytes : Entry → CStr

/-- `readEntry` and the comparison of the CRC. -/
def Misread.readItem (mis : Misread) : Entry → Item × Bool
  | .item item => (item, true)
  | e => mis.item e

/-- `readEntry` for the bytes of a string. -/
def Misread.readData (mis : Misread) : Entry → CStr
  | .data bytes => bytes
  | e => mis.bytes e

/-! ### The page -/

/-- `Page`: INVALID_ENTRY is `none`; the RAM copy of the table is that in flash. -/
structure Page where
  flash : Flash
  nextFreeEntry : Option ℕ
  firstUsedEntry : Option ℕ
  hashList : List (BitVec 32 × ℕ)
  log : List FlashWrite

/-- A write to the flash. -/
def Page.write (p : Page) (w : FlashWrite) : Page :=
  { p with flash := flashMedium.write w p.flash, log := p.log ++ [w] }

/-- `mNextFreeEntry`, or ENTRY_COUNT if that is less. -/
def Page.stop (p : Page) : ℕ :=
  match p.nextFreeEntry with
  | some n => min n entryCount
  | none => entryCount

/-- `alterEntryState`. -/
def Page.alterEntryState (p : Page) (index : ℕ) (s : EntryState) : Page :=
  p.write (.states index (index + 1) s)

/-- The writes of `alterEntryRangeState` to the first `words` words of the table, from the last to
the first; a word holds 16 states. -/
def rangeWrites (lo hi : ℕ) (s : EntryState) : ℕ → List FlashWrite
  | 0 => []
  | w + 1 =>
      if max lo (16 * w) < min hi (16 * w + 16) then
        .states (max lo (16 * w)) (min hi (16 * w + 16)) s :: rangeWrites lo hi s w
      else rangeWrites lo hi s w

/-- `alterEntryRangeState`. -/
def Page.alterEntryRangeState (p : Page) (lo hi : ℕ) (s : EntryState) : Page :=
  (rangeWrites lo hi s 8).foldl Page.write p

/-- `updateFirstUsedEntry`. -/
def Page.updateFirstUsedEntry (p : Page) (index span : ℕ) : Page :=
  let rest := List.range' (index + span) (p.stop - (index + span))
  { p with firstUsedEntry := rest.find? fun i => p.flash.state i = .written }

variable (mis : Misread)

/-- The number of entries that `eraseEntryAndSpan` erases. -/
def Page.erasedSpan (p : Page) (index : ℕ) : ℕ :=
  if p.flash.state index = .written ∧ (mis.readItem (p.flash.entry index)).2 = true then
    (mis.readItem (p.flash.entry index)).1.span
  else 1

/-- `eraseEntryAndSpan`. -/
def Page.eraseEntryAndSpan (p : Page) (index : ℕ) : Option Page :=
  let span := p.erasedSpan mis index
  if span = 0 ∨ entryCount < index + span then none
  else
    let p := if p.flash.state index = .written then
        { p with hashList := p.hashList.filter (fun e => e.2 ≠ index) } else p
    let p := if span = 1 then p.alterEntryState index .erased
      else p.alterEntryRangeState index (index + span) .erased
    let p := if p.firstUsedEntry = some index then p.updateFirstUsedEntry index span else p
    some (if p.nextFreeEntry.any fun n => n < index + span then
      { p with nextFreeEntry := some (index + span) } else p)

/-- The results of `findItem`. -/
inductive FindResult where
  | found (index : ℕ) (item : Item)
  | typeMismatch
  | notFound
deriving DecidableEq, Repr

/-- The loop of `findItem` from `i` up to `stop`. -/
def Page.findLoop (nsIndex : ℕ) (datatype : ItemType) (key : CStr) (stop : ℕ) :
    ℕ → Page → ℕ → Option (Page × FindResult)
  | 0, _, _ => none
  | fuel + 1, p, i =>
      if stop ≤ i then some (p, .notFound)
      else if p.flash.state i ≠ .written then findLoop nsIndex datatype key stop fuel p (i + 1)
      else
        let r := mis.readItem (p.flash.entry i)
        if r.2 = false then
          (p.eraseEntryAndSpan mis i).bind fun p =>
            findLoop nsIndex datatype key stop fuel p (i + 1)
        else if r.1.nsIndex ≠ nsIndex ∨ r.1.key ≠ keyField key then
          findLoop nsIndex datatype key stop fuel p
            (if r.1.datatype = .sz then i + r.1.span else i + 1)
        else if r.1.datatype ≠ datatype then some (p, .typeMismatch)
        else some (p, .found i r.1)

/-- `mHashList.find`. -/
def Page.hashFind (p : Page) (start : ℕ) (hash : BitVec 32) : Option ℕ :=
  (p.hashList.find? fun e => start ≤ e.2 ∧ e.1 = hash).map Prod.snd

/-- `findItem` for a namespace and a key, from the first entry on. -/
def Page.findItem (p : Page) (nsIndex : ℕ) (datatype : ItemType) (key : CStr) :
    Option (Page × FindResult) :=
  match p.firstUsedEntry.bind fun start => p.hashFind start (hash24 nsIndex key) with
  | none => some (p, .notFound)
  | some index => p.findLoop mis nsIndex datatype key p.stop (entryCount + 1) index

/-! ### Reading and writing -/

/-- A value that is stored. -/
inductive ItemValue where
  | u8 (v : BitVec 8)
  | sz (s : CStr)
deriving DecidableEq, Repr

/-- Its type. -/
def ItemValue.datatype : ItemValue → ItemType
  | .u8 _ => .u8
  | .sz _ => .sz

/-- The bytes that are written behind the header: a string with its terminator. -/
def ItemValue.bytes : ItemValue → CStr
  | .u8 _ => []
  | .sz s => s ++ ['\x00']

/-- The bytes that fill whole entries. -/
def fullEntries (bytes : CStr) : List Entry :=
  (List.range (bytes.length / entrySize)).map fun k =>
    .data ((bytes.drop (entrySize * k)).take entrySize)

/-- The rest of the bytes. -/
def tailEntries (bytes : CStr) : List Entry :=
  if bytes.length % entrySize = 0 then []
  else [.data (bytes.drop (entrySize * (bytes.length / entrySize)) ++
    List.replicate (entrySize - bytes.length % entrySize) '\xff')]

/-- The header of a value. -/
def ItemValue.header (nsIndex : ℕ) (key : CStr) (value : ItemValue) : Item where
  nsIndex := nsIndex
  span := 1 + (fullEntries value.bytes).length + (tailEntries value.bytes).length
  key := keyField key
  data := match value with
    | .u8 v => .u8 v
    | .sz s => .varLength (s.length + 1) (espRomCrc32Le 0xffffffff#32 (s ++ ['\x00']))

/-- `writeEntry`. -/
def Page.writeEntry (p : Page) (e : Entry) : Option Page :=
  match p.nextFreeEntry with
  | none => none
  | some n =>
      if entryCount ≤ n then none
      else
        let p := (p.write (.entries n [e])).alterEntryState n .written
        some { p with firstUsedEntry := p.firstUsedEntry.or (some n), nextFreeEntry := some (n + 1) }

/-- `writeEntryData`. -/
def Page.writeEntryData (p : Page) (es : List Entry) : Option Page :=
  match p.nextFreeEntry with
  | none => none
  | some n =>
      if p.firstUsedEntry = none ∨ entryCount < n + es.length then none
      else
        let p := (p.write (.entries n es)).alterEntryRangeState n (n + es.length) .written
        some { p with nextFreeEntry := some (n + es.length) }

/-- The results of a write; at `pageFull` the code goes on to another page. -/
inductive SetResult where
  | ok
  | keyTooLong
  | valueTooLong
  | pageFull
  | notFound
deriving DecidableEq, Repr

/-- The entries of a string. -/
def Page.writeData (p : Page) (bytes : CStr) : Option Page :=
  (if fullEntries bytes = [] then some p else p.writeEntryData (fullEntries bytes)).bind fun p =>
    (tailEntries bytes).foldlM Page.writeEntry p

/-- `Page::writeItem`. -/
def Page.writeItem (p : Page) (nsIndex : ℕ) (key : CStr) (value : ItemValue) :
    Option (Page × SetResult) :=
  let header := value.header nsIndex key
  if maxKeyLength < key.length then some (p, .keyTooLong)
  else if entrySize * (entryCount - 1) < value.bytes.length then some (p, .valueTooLong)
  else
    match p.nextFreeEntry with
    | none => some (p, .pageFull)
    | some n =>
        if entryCount < n + header.span then some (p, .pageFull)
        else
          let p := { p with hashList := p.hashList ++ [(hash24 nsIndex key, n)] }
          ((p.writeEntry (.item header)).bind fun p => p.writeData value.bytes).map
            fun p => (p, .ok)

/-- The bytes of the entries behind a header, up to a size. -/
def Page.dataAt (p : Page) (index : ℕ) (item : Item) (size : ℕ) : CStr :=
  (((List.range' (index + 1) (item.span - 1)).flatMap fun i =>
    (mis.readData (p.flash.entry i)).take entrySize).take size)

/-- `Page::cmpItem`, for the item found. -/
def Page.sameData (p : Page) (index : ℕ) (item : Item) (value : ItemValue) : Bool :=
  match value, item.data with
  | .u8 v, .u8 w => v = w
  | .sz _, .varLength size crc =>
      size ≤ value.bytes.length &&
        p.dataAt mis index item size = value.bytes.take size &&
        espRomCrc32Le 0xffffffff#32 (value.bytes.take size) = crc
  | _, _ => false

/-- `Storage::writeItem` on one page: nothing is written if the value is stored already; else the new
value is written and the old one erased. -/
def Page.setItem (p : Page) (nsIndex : ℕ) (key : CStr) (value : ItemValue) :
    Option (Page × SetResult) :=
  (p.findItem mis nsIndex value.datatype key).bind fun
    | (p, .found index item) =>
        if p.sameData mis index item value then some (p, .ok)
        else
          (p.writeItem nsIndex key value).bind fun
            | (p, .ok) =>
                (p.findItem mis nsIndex value.datatype key).bind fun
                  | (p, .found index _) => (p.eraseEntryAndSpan mis index).map fun p => (p, .ok)
                  | (p, _) => some (p, .notFound)
            | (p, r) => some (p, r)
    | (p, _) => p.writeItem nsIndex key value

/-- `Storage::readItem` on one page, for a buffer that is large enough. -/
def Page.readItem (p : Page) (nsIndex : ℕ) (datatype : ItemType) (key : CStr) :
    Option (Page × Option ItemValue) :=
  (p.findItem mis nsIndex datatype key).bind fun
    | (p, .found index item) =>
        match item.data with
        | .u8 v => some (p, some (.u8 v))
        | .varLength size crc =>
            if espRomCrc32Le 0xffffffff#32 (p.dataAt mis index item size) = crc then
              some (p, some (.sz (cstr (p.dataAt mis index item size))))
            else (p.eraseEntryAndSpan mis index).map fun p => (p, none)
    | (p, _) => some (p, none)

/-! ### Loading -/

/-- The first entry in a state. -/
def Flash.firstEntry (f : Flash) (s : EntryState) : Option ℕ :=
  (List.range entryCount).find? fun i => f.state i = s

/-- The loop of `mLoadEntryTable` that erases entries written without their state. -/
def Page.eraseHalfWritten : ℕ → Page → Page
  | 0, p => p
  | fuel + 1, p =>
      match p.nextFreeEntry with
      | none => p
      | some n =>
          if n < entryCount ∧ (p.flash.entry n).headerBlank = false then
            eraseHalfWritten fuel
              { p.alterEntryState n .erased with nextFreeEntry := some (n + 1) }
          else p

/-- Not all entries of an item are written. -/
def Flash.incomplete (f : Flash) (index span : ℕ) : Bool :=
  (List.range' index span).any fun j => f.state j ≠ .written

/-- `mHashList.insert`. -/
def Page.insertHash (p : Page) (item : Item) (index : ℕ) : Page :=
  { p with hashList := p.hashList ++ [(hash24 item.nsIndex item.key, index)] }

/-- The round of `mLoadEntryTable` at the header of an item: the page after it, the next entry, and
the item with its index if it is complete. -/
def Page.checkItem (p : Page) (i : ℕ) (item : Item) : Option (Page × ℕ × Option (ℕ × Item)) :=
  let inserted := p.insertHash item i
  let span := if item.datatype = .sz then item.span else 1
  if item.datatype = .sz ∧ p.flash.incomplete i item.span = true then
    (inserted.eraseEntryAndSpan mis i).map fun p => (p, i + span, none)
  else
    match inserted.hashFind 0 (hash24 item.nsIndex item.key) with
    | some duplicate =>
        if duplicate < i then
          (inserted.eraseEntryAndSpan mis duplicate).map fun p => (p, i + span, some (i, item))
        else some (inserted, i + span, some (i, item))
    | none => some (inserted, i + span, some (i, item))

/-- The round at any entry. -/
def Page.checkEntry (p : Page) (i : ℕ) : Option (Page × ℕ × Option (ℕ × Item)) :=
  if p.flash.state i = .erased then some (p, i + 1, none)
  else if p.flash.state i = .illegal then
    (p.eraseEntryAndSpan mis i).map fun p => (p, i + 1, none)
  else
    let r := mis.readItem (p.flash.entry i)
    if r.2 = false then (p.eraseEntryAndSpan mis i).map fun p => (p, i + 1, some (i, r.1))
    else p.checkItem mis i r.1

/-- The loop of `mLoadEntryTable` over the entries up to `stop`; `last` is the last item with its
index. -/
def Page.checkItems (stop : ℕ) :
    ℕ → Page → ℕ → Option (ℕ × Item) → Option (Page × Option (ℕ × Item))
  | 0, _, _, _ => none
  | fuel + 1, p, i, last =>
      if stop ≤ i then some (p, last)
      else (p.checkEntry mis i).bind fun r => checkItems stop fuel r.1 r.2.1 r.2.2

/-- The last step of `mLoadEntryTable`: the last item may be a duplicate. -/
def Page.checkLast (p : Page) (last : Option (ℕ × Item)) : Option Page :=
  match last with
  | none => some p
  | some (index, item) =>
      (p.findItem mis item.nsIndex item.datatype item.key).bind fun
        | (p, .found i _) => if i < index then p.eraseEntryAndSpan mis i else some p
        | (p, _) => some p

/-- `Page::load` for a page in the state ACTIVE. -/
def load (f : Flash) : Option Page :=
  let p : Page :=
    { flash := f
      nextFreeEntry := f.firstEntry .empty
      firstUsedEntry := f.firstEntry .written
      hashList := []
      log := [] }
  let p := p.eraseHalfWritten entryCount
  (p.checkItems mis p.stop (entryCount + 1) 0 none).bind fun r => r.1.checkLast mis r.2

/-- The page after `initialize`. -/
def Page.fresh : Page where
  flash := .blank
  nextFreeEntry := some 0
  firstUsedEntry := none
  hashList := []
  log := []

end NvsPage

end Sicae
