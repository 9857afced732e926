import AlignedLayer.AggregationMode.RootAgreement

/-!
# The leaves in the blob

`construct_blob` writes the leaves of the tree into a blob, thirty-one bytes to
a field element, and the SDK reads them back with `decoded_blob`.  The decoder
knows neither how many leaves there are nor where they end: it stops at the
first thirty-two zero bytes.
-/

namespace AlignedLayer

def bytesPerBlob : Nat := 131072

/-- `copy_from_slice` into the bytes from `start` on; `none` is the panic of a
range that leaves them. -/
def copyFromSlice (bytes : Bytes) (start : Nat) (chunk : Bytes) : Option Bytes :=
  if start + chunk.length ≤ bytes.length then
    some (bytes.take start ++ chunk ++ bytes.drop (start + chunk.length))
  else
    none

/-- The loop over the chunks. -/
def writeChunks (offset : Nat) (blobData : Bytes) : List Bytes → Option Bytes
  | [] => some blobData
  | chunk :: rest => do
      let blobData ← copyFromSlice blobData offset [0]
      let blobData ← copyFromSlice blobData (offset + 1) chunk
      writeChunks (offset + 32) blobData rest

/-- The payload that `construct_blob` commits to. -/
def constructBlob (leaves : List Bytes32) : Option Bytes :=
  let data := leaves.flatMap fun leaf => leaf.toList
  writeChunks 0 (List.replicate bytesPerBlob 0) (chunks 31 data)

/-- The variables of `decoded_blob` beside the position. -/
structure BlobDecoder where
  proofHashes : List Bytes32
  currentHash : Bytes32
  currentHashCount : Fin 32

namespace BlobDecoder

/-- Before the next hash. -/
def between (proofHashes : List Bytes32) : BlobDecoder :=
  ⟨proofHashes, Bytes32.zero, 0⟩

/-- A byte that is no padding; `none` is the `break`. -/
def take (decoder : BlobDecoder) (byte : UInt8) : Option BlobDecoder :=
  let currentHash := decoder.currentHash.set decoder.currentHashCount byte
  if bound : decoder.currentHashCount.val + 1 = 32 then
    if currentHash = Bytes32.zero then none
    else some (between (decoder.proofHashes ++ [currentHash]))
  else
    some { decoder with
      currentHash := currentHash
      currentHashCount := ⟨decoder.currentHashCount.val + 1, by omega⟩ }

/-- The loop, on the bytes that are left. -/
def loop (decoder : BlobDecoder) (totalBytesCount : Nat) : Bytes → List Bytes32
  | [] => decoder.proofHashes
  | byte :: rest =>
      if totalBytesCount % 32 = 0 then
        loop decoder (totalBytesCount + 1) rest
      else
        match decoder.take byte with
        | none => decoder.proofHashes
        | some next => loop next (totalBytesCount + 1) rest

end BlobDecoder

def decodedBlob (blobData : Bytes) : List Bytes32 :=
  (BlobDecoder.between []).loop 0 blobData

/-! ## What is written -/

/-- The bytes of one field element. -/
def fieldElement (chunk : Bytes) : Bytes :=
  0 :: (chunk ++ List.replicate (31 - chunk.length) 0)

theorem length_fieldElement {chunk : Bytes} (short : chunk.length ≤ 31) :
    (fieldElement chunk).length = 32 := by
  rw [fieldElement, List.length_cons, List.length_append, List.length_replicate]
  omega

theorem length_fieldElements {chunked : List Bytes}
    (short : ∀ chunk ∈ chunked, chunk.length ≤ 31) :
    (chunked.flatMap fieldElement).length = 32 * chunked.length := by
  induction chunked with
  | nil => rfl
  | cons chunk rest induction =>
      have later := induction fun other member => short other (List.mem_cons_of_mem chunk member)
      have here := length_fieldElement (short chunk List.mem_cons_self)
      rw [List.flatMap_cons, List.length_append, here, later, List.length_cons]
      omega

/-- A write at the end of what is written, over zero bytes. -/
theorem copyFromSlice_zeros (written : Bytes) {chunk : Bytes} {zeros : Nat}
    (room : chunk.length ≤ zeros) :
    copyFromSlice (written ++ List.replicate zeros 0) written.length chunk =
      some (written ++ chunk ++ List.replicate (zeros - chunk.length) 0) := by
  have inside : written.length + chunk.length ≤
      (written ++ List.replicate zeros (0 : UInt8)).length := by
    rw [List.length_append, List.length_replicate]
    omega
  rw [copyFromSlice, if_pos inside, List.take_left, List.drop_append, List.drop_replicate,
    List.drop_eq_nil_of_le (Nat.le_add_right _ _), List.nil_append, Nat.add_sub_cancel_left]

/-- Every chunk becomes a field element, and the rest stays zero. -/
theorem writeChunks_zeros (written : Bytes) {chunked : List Bytes} {zeros : Nat}
    (short : ∀ chunk ∈ chunked, chunk.length ≤ 31) (room : 32 * chunked.length ≤ zeros) :
    writeChunks written.length (written ++ List.replicate zeros 0) chunked =
      some (written ++ chunked.flatMap fieldElement ++
        List.replicate (zeros - 32 * chunked.length) 0) := by
  induction chunked generalizing written zeros with
  | nil => rw [writeChunks, List.flatMap_nil, List.append_nil, List.length_nil, Nat.mul_zero,
      Nat.sub_zero]
  | cons chunk rest induction =>
      have here := short chunk List.mem_cons_self
      have later : ∀ other ∈ rest, other.length ≤ 31 :=
        fun other member => short other (List.mem_cons_of_mem chunk member)
      rw [List.length_cons] at room
      have oneByte : [(0 : UInt8)].length ≤ zeros := by
        rw [List.length_singleton]
        omega
      have chunkFits : chunk.length ≤ zeros - 1 := by omega
      have padded := copyFromSlice_zeros written oneByte
      have copied := copyFromSlice_zeros (written ++ [0]) chunkFits
      rw [List.length_append, List.length_singleton] at copied
      rw [List.length_singleton] at padded
      -- The zero bytes behind a short last chunk belong to its element.
      have element : written ++ [0] ++ chunk ++ List.replicate (zeros - 1 - chunk.length) 0 =
          (written ++ fieldElement chunk) ++ List.replicate (zeros - 32) 0 := by
        have split : zeros - 1 - chunk.length = (31 - chunk.length) + (zeros - 32) := by omega
        rw [split, ← List.replicate_append_replicate, fieldElement]
        simp only [List.append_assoc, List.cons_append, List.nil_append]
      have width : written.length + 32 = (written ++ fieldElement chunk).length := by
        rw [List.length_append, length_fieldElement here]
      have left : zeros - 32 - 32 * rest.length = zeros - 32 * (rest.length + 1) := by omega
      rw [writeChunks, padded, Option.bind_eq_bind, Option.bind_some, copied,
        Option.bind_some, element, width,
        induction (written ++ fieldElement chunk) later (by omega),
        List.flatMap_cons, List.length_cons, left, List.append_assoc written]

/-- The first byte of every element is zero, written or not. -/
theorem first_fieldElements {chunked : List Bytes} {zeros element : Nat}
    (short : ∀ chunk ∈ chunked, chunk.length ≤ 31)
    (inside : 32 * element < 32 * chunked.length + zeros) :
    (chunked.flatMap fieldElement ++ List.replicate zeros 0)[32 * element]? = some 0 := by
  induction chunked generalizing element with
  | nil =>
      rw [List.length_nil, Nat.mul_zero, Nat.zero_add] at inside
      rw [List.flatMap_nil, List.nil_append, List.getElem?_replicate_of_lt inside]
  | cons chunk rest induction =>
      cases element with
      | zero => rfl
      | succ element =>
          have width := length_fieldElement (short chunk List.mem_cons_self)
          rw [List.length_cons] at inside
          rw [List.flatMap_cons, List.append_assoc,
            List.getElem?_append_right (by omega), width, Nat.mul_succ, Nat.add_sub_cancel]
          apply induction
          · exact fun other member => short other (List.mem_cons_of_mem chunk member)
          · omega

/-! ## What is read -/

/-- The bytes behind the position that are no padding. -/
def unpadded (totalBytesCount : Nat) : Bytes → Bytes
  | [] => []
  | byte :: rest =>
      if totalBytesCount % 32 = 0 then unpadded (totalBytesCount + 1) rest
      else byte :: unpadded (totalBytesCount + 1) rest

/-- Up to the next padding nothing is skipped. -/
theorem unpadded_append {bytes rest : Bytes} {totalBytesCount : Nat}
    (inside : totalBytesCount % 32 ≠ 0) (ends : totalBytesCount % 32 + bytes.length ≤ 32) :
    unpadded totalBytesCount (bytes ++ rest) =
      bytes ++ unpadded (totalBytesCount + bytes.length) rest := by
  induction bytes generalizing totalBytesCount with
  | nil => rfl
  | cons byte others induction =>
      rw [List.length_cons] at ends
      rw [List.cons_append, unpadded, if_neg inside, List.cons_append]
      congr 1
      cases others with
      | nil => rfl
      | cons other later =>
          rw [List.length_cons] at ends
          rw [induction (by omega) (by rw [List.length_cons]; omega)]
          congr 2
          simp only [List.length_cons]
          omega

theorem unpadded_fieldElement {chunk rest : Bytes} {totalBytesCount : Nat}
    (short : chunk.length ≤ 31) (starts : totalBytesCount % 32 = 0) :
    unpadded totalBytesCount (fieldElement chunk ++ rest) =
      chunk ++ List.replicate (31 - chunk.length) 0 ++ unpadded (totalBytesCount + 32) rest := by
  have width : (chunk ++ List.replicate (31 - chunk.length) (0 : UInt8)).length = 31 := by
    rw [List.length_append, List.length_replicate]
    omega
  rw [fieldElement, List.cons_append, unpadded, if_pos starts,
    unpadded_append (by omega) (by omega), width]

/-- Zero bytes stay zero bytes, whatever of them is padding. -/
theorem unpadded_zeros (totalBytesCount zeros : Nat) :
    ∃ fewer, unpadded totalBytesCount (List.replicate zeros 0) = List.replicate fewer 0 := by
  induction zeros generalizing totalBytesCount with
  | zero => exact ⟨0, rfl⟩
  | succ zeros induction =>
      obtain ⟨fewer, same⟩ := induction (totalBytesCount + 1)
      rw [List.replicate_succ, unpadded, same]
      split
      · exact ⟨fewer, rfl⟩
      · exact ⟨fewer + 1, List.replicate_succ.symm⟩

/-- Without the padding, the elements of the chunks hold the data, and after
it only zero bytes. -/
theorem unpadded_chunks (data rest : Bytes) {totalBytesCount : Nat}
    (starts : totalBytesCount % 32 = 0) :
    ∃ zeros, unpadded totalBytesCount ((chunks 31 data).flatMap fieldElement ++ rest) =
      data ++ List.replicate zeros 0 ++
        unpadded (totalBytesCount + 32 * (chunks 31 data).length) rest := by
  induction data using chunks.induct 31 generalizing totalBytesCount with
  | case1 => exact ⟨0, by simp [chunks]⟩
  | case2 first later induction =>
      have short : (first :: later.take 30).length ≤ 31 := by
        rw [List.length_cons, List.length_take]
        omega
      have nextStarts : (totalBytesCount + 32) % 32 = 0 := by omega
      obtain ⟨zeros, same⟩ := induction nextStarts
      have step : unpadded totalBytesCount
          ((chunks 31 (first :: later)).flatMap fieldElement ++ rest) =
          (first :: later.take 30) ++ List.replicate (30 - later.length) 0 ++
            (later.drop 30 ++ List.replicate zeros 0 ++
              unpadded (totalBytesCount + 32 * (chunks 31 (first :: later)).length) rest) := by
        have padding : 31 - (first :: later.take 30).length = 30 - later.length := by
          rw [List.length_cons, List.length_take]
          omega
        have count : totalBytesCount + 32 + 32 * (chunks 31 (later.drop 30)).length =
            totalBytesCount + 32 * (chunks 31 (first :: later)).length := by
          rw [chunks, List.length_cons, Nat.add_one_sub_one]
          omega
        rw [← count, ← same, chunks, List.flatMap_cons, List.append_assoc,
          unpadded_fieldElement short starts, padding]
      rw [step]
      -- Only the last chunk is short, and then no data comes after it.
      rcases Nat.lt_or_ge later.length 30 with last | full
      · refine ⟨30 - later.length + zeros, ?_⟩
        rw [List.take_of_length_le (by omega), List.drop_eq_nil_of_le (by omega),
          ← List.replicate_append_replicate]
        simp only [List.append_assoc, List.nil_append]
      · refine ⟨zeros, ?_⟩
        rw [Nat.sub_eq_zero_of_le full, List.replicate_zero, List.append_nil]
        simp only [List.cons_append, ← List.append_assoc, List.take_append_drop]

theorem length_chunks_le {size : Nat} (data : Bytes) (positive : 0 < size) :
    size * (chunks size data).length < data.length + size := by
  induction data using chunks.induct size with
  | case1 =>
      rw [chunks, List.length_nil]
      omega
  | case2 first rest induction =>
      rw [chunks, List.length_cons, Nat.mul_succ, List.length_cons]
      rw [List.length_drop] at induction
      rcases Nat.lt_or_ge rest.length (size - 1) with last | full
      · have none : rest.drop (size - 1) = [] := List.drop_eq_nil_of_le (by omega)
        rw [none, chunks, List.length_nil]
        omega
      · omega

theorem length_le_of_mem_chunks {size : Nat} {data chunk : Bytes} (positive : 0 < size)
    (member : chunk ∈ chunks size data) : chunk.length ≤ size := by
  induction data using chunks.induct size with
  | case1 =>
      rw [chunks] at member
      cases member
  | case2 first rest induction =>
      rw [chunks, List.mem_cons] at member
      rcases member with rfl | later
      · rw [List.length_cons, List.length_take]
        omega
      · exact induction later

namespace BlobDecoder

/-- The loop on bytes without padding. -/
def takeAll (decoder : BlobDecoder) : Bytes → List Bytes32
  | [] => decoder.proofHashes
  | byte :: rest =>
      match decoder.take byte with
      | none => decoder.proofHashes
      | some next => takeAll next rest

theorem loop_eq (decoder : BlobDecoder) (totalBytesCount : Nat) (bytes : Bytes) :
    decoder.loop totalBytesCount bytes = decoder.takeAll (unpadded totalBytesCount bytes) := by
  induction bytes generalizing decoder totalBytesCount with
  | nil => rfl
  | cons byte rest induction =>
      rw [loop, unpadded]
      split
      · exact induction decoder (totalBytesCount + 1)
      · rw [takeAll]
        cases decoder.take byte with
        | none => rfl
        | some next => exact induction next (totalBytesCount + 1)

/-- The first bytes of a leaf have been read. -/
structure Reads (decoder : BlobDecoder) (leaf : Bytes32) : Prop where
  same : ∀ index (bound : index < 32), index < decoder.currentHashCount.val →
    decoder.currentHash[index] = leaf[index]

theorem Reads.set {decoder : BlobDecoder} {leaf : Bytes32} (reads : decoder.Reads leaf)
    (index : Nat) (bound : index < 32) (upTo : index ≤ decoder.currentHashCount.val) :
    (decoder.currentHash.set decoder.currentHashCount
      leaf[decoder.currentHashCount.val])[index] = leaf[index] := by
  rw [Vector.getElem_set]
  split
  · next same => simp only [same]
  · exact reads.same index bound (by omega)

theorem drop_leaf {decoder : BlobDecoder} (leaf : Bytes32) :
    leaf.toList.drop decoder.currentHashCount =
      leaf[decoder.currentHashCount.val] ::
        leaf.toList.drop (decoder.currentHashCount.val + 1) := by
  rw [List.drop_eq_getElem_cons (by rw [Vector.length_toList]; exact decoder.currentHashCount.isLt),
    Vector.getElem_toList]

theorem takeAll_rest {decoder : BlobDecoder} {leaf : Bytes32} {rest : Bytes}
    (reads : decoder.Reads leaf) (nonzero : leaf ≠ Bytes32.zero) :
    decoder.takeAll (leaf.toList.drop decoder.currentHashCount ++ rest) =
      (between (decoder.proofHashes ++ [leaf])).takeAll rest := by
  -- Induction on how many bytes of the leaf are missing.
  generalize missing : 31 - decoder.currentHashCount.val = count
  induction count generalizing decoder with
  | zero =>
      have last : decoder.currentHashCount.val + 1 = 32 := by
        have bound := decoder.currentHashCount.isLt
        omega
      have complete : decoder.currentHash.set decoder.currentHashCount
          leaf[decoder.currentHashCount.val] = leaf := by
        apply Vector.ext
        intro index bound
        exact reads.set index bound (by omega)
      have finished : leaf.toList.drop (decoder.currentHashCount.val + 1) = [] := by
        apply List.drop_eq_nil_of_le
        rw [Vector.length_toList]
        omega
      have taken : decoder.take leaf[decoder.currentHashCount.val] =
          some (between (decoder.proofHashes ++ [leaf])) := by
        rw [take, dif_pos last, complete, if_neg nonzero]
      rw [drop_leaf, finished, List.cons_append, List.nil_append, takeAll, taken]
  | succ count induction =>
      have more : ¬ decoder.currentHashCount.val + 1 = 32 := by omega
      have nextReads : Reads ⟨decoder.proofHashes,
          decoder.currentHash.set decoder.currentHashCount leaf[decoder.currentHashCount.val],
          ⟨decoder.currentHashCount.val + 1, by omega⟩⟩ leaf :=
        ⟨fun index bound before => reads.set index bound (Nat.le_of_lt_succ before)⟩
      have step := induction nextReads
        (by change 31 - (decoder.currentHashCount.val + 1) = count; omega)
      rw [drop_leaf, List.cons_append, takeAll, take, dif_neg more]
      exact step

theorem takeAll_leaf {proofHashes : List Bytes32} {leaf : Bytes32} {rest : Bytes}
    (nonzero : leaf ≠ Bytes32.zero) :
    (between proofHashes).takeAll (leaf.toList ++ rest) =
      (between (proofHashes ++ [leaf])).takeAll rest := by
  have reads : (between proofHashes).Reads leaf :=
    ⟨fun _ _ before => absurd before (Nat.not_lt_zero _)⟩
  exact takeAll_rest reads nonzero

theorem takeAll_leaves {proofHashes leaves : List Bytes32} {rest : Bytes}
    (nonzero : ∀ leaf ∈ leaves, leaf ≠ Bytes32.zero) :
    (between proofHashes).takeAll ((leaves.flatMap fun leaf => leaf.toList) ++ rest) =
      (between (proofHashes ++ leaves)).takeAll rest := by
  induction leaves generalizing proofHashes with
  | nil => rw [List.flatMap_nil, List.nil_append, List.append_nil]
  | cons leaf later induction =>
      rw [List.flatMap_cons, List.append_assoc, takeAll_leaf (nonzero leaf List.mem_cons_self),
        induction fun other member => nonzero other (List.mem_cons_of_mem leaf member),
        List.append_assoc, List.singleton_append]

theorem zero_set (count : Fin 32) : Bytes32.zero.set count 0 = Bytes32.zero := by
  apply Vector.ext
  intro index bound
  rw [Vector.getElem_set, Bytes32.zero, Vector.getElem_replicate, ite_self]

theorem take_zero (proofHashes : List Bytes32) (currentHashCount : Fin 32) :
    take ⟨proofHashes, Bytes32.zero, currentHashCount⟩ 0 = none ∨
      ∃ count, take ⟨proofHashes, Bytes32.zero, currentHashCount⟩ 0 =
        some ⟨proofHashes, Bytes32.zero, count⟩ := by
  rw [take]
  simp only [zero_set]
  split
  · exact .inl (if_pos trivial)
  · exact .inr ⟨_, rfl⟩

/-- No leaf comes out of zero bytes, whether or not they fill a hash. -/
theorem takeAll_zeros (proofHashes : List Bytes32) (currentHashCount : Fin 32) (zeros : Nat) :
    takeAll ⟨proofHashes, Bytes32.zero, currentHashCount⟩ (List.replicate zeros 0) =
      proofHashes := by
  induction zeros generalizing currentHashCount with
  | zero => rfl
  | succ zeros induction =>
      rw [List.replicate_succ, takeAll]
      rcases take_zero proofHashes currentHashCount with broke | ⟨count, went⟩
      · rw [broke]
      · rw [went]
        exact induction count

end BlobDecoder

/-! ## The round trip -/

theorem length_flatMap_leaves (leaves : List Bytes32) :
    (leaves.flatMap fun leaf => leaf.toList).length = 32 * leaves.length := by
  induction leaves with
  | nil => rfl
  | cons leaf rest induction =>
      rw [List.flatMap_cons, List.length_append, induction, Vector.length_toList,
        List.length_cons]
      omega

/-- The field elements of the leaves, and zero bytes up to the end. -/
theorem constructBlob_eq {leaves : List Bytes32} (fits : leaves.length ≤ 3968) :
    ∃ zeros, constructBlob leaves =
        some ((chunks 31 (leaves.flatMap fun leaf => leaf.toList)).flatMap fieldElement ++
          List.replicate zeros 0) ∧
      32 * (chunks 31 (leaves.flatMap fun leaf => leaf.toList)).length + zeros =
        bytesPerBlob := by
  have count := length_chunks_le (leaves.flatMap fun leaf => leaf.toList) (by decide : 0 < 31)
  rw [length_flatMap_leaves] at count
  have room : 32 * (chunks 31 (leaves.flatMap fun leaf => leaf.toList)).length ≤
      bytesPerBlob := by
    rw [bytesPerBlob]
    omega
  refine ⟨_, ?_, Nat.add_sub_cancel' room⟩
  have written := writeChunks_zeros []
    (fun chunk member => length_le_of_mem_chunks (by decide : 0 < 31) member) room
  rwa [List.nil_append, List.nil_append] at written

theorem blob_round_trip (leaves : List Bytes32) (fits : leaves.length ≤ 3968)
    (nonzero : ∀ leaf ∈ leaves, leaf ≠ Bytes32.zero) :
    ∃ blobData, constructBlob leaves = some blobData ∧
      blobData.length = bytesPerBlob ∧
      decodedBlob blobData = leaves ∧
      ∀ element, 32 * element < bytesPerBlob → blobData[32 * element]? = some 0 := by
  obtain ⟨zeros, constructed, size⟩ := constructBlob_eq fits
  have short : ∀ chunk ∈ chunks 31 (leaves.flatMap fun leaf => leaf.toList),
      chunk.length ≤ 31 :=
    fun chunk member => length_le_of_mem_chunks (by decide) member
  refine ⟨_, constructed, ?_, ?_, ?_⟩
  · rw [List.length_append, length_fieldElements short, List.length_replicate, size]
  · obtain ⟨behind, read⟩ := unpadded_chunks (leaves.flatMap fun leaf => leaf.toList)
      (List.replicate zeros 0) (Nat.zero_mod 32)
    obtain ⟨fewer, blank⟩ := unpadded_zeros
      (0 + 32 * (chunks 31 (leaves.flatMap fun leaf => leaf.toList)).length) zeros
    rw [decodedBlob, BlobDecoder.loop_eq, read, blank, List.append_assoc,
      List.replicate_append_replicate, BlobDecoder.takeAll_leaves nonzero, List.nil_append]
    exact BlobDecoder.takeAll_zeros leaves 0 _
  · intro element inside
    rw [← size] at inside
    exact first_fieldElements short inside

/-- Two leaves, the second of which starts in the second element. -/
theorem blob_round_trip_two :
    ∃ blobData, constructBlob [Vector.replicate 32 7, Vector.replicate 32 9] = some blobData ∧
      blobData.length = bytesPerBlob ∧
      decodedBlob blobData = [Vector.replicate 32 7, Vector.replicate 32 9] ∧
      ∀ element, 32 * element < bytesPerBlob → blobData[32 * element]? = some 0 := by
  apply blob_round_trip
  · decide
  · decide

end AlignedLayer
