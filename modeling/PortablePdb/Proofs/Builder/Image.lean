import PortablePdb.Proofs.Header.Streams

/-!
# Where the streams of an image are

The headers of an image name the place of each stream: the first starts behind the headers, and
each other one behind the stream before it.  What stands in the image at the place that a header
names is the stream.
-/

namespace PortablePdb

open Reader

theorem length_padded (bytes : List UInt8) :
    (Builder.padded bytes).length = align4 bytes.length := by
  have hmore := le_align4 bytes.length
  rw [Builder.padded, List.length_append, List.length_replicate]
  omega

/-- The headers of streams of which the first starts at `offset`. -/
def headersFrom (offset : Nat) : List (String × List UInt8) → List StreamHeader
  | [] => []
  | (name, bytes) :: streams =>
      { offset, size := bytes.length, name } :: headersFrom (offset + align4 bytes.length) streams

theorem length_headersFrom (offset : Nat) (streams : List (String × List UInt8)) :
    (headersFrom offset streams).length = streams.length := by
  induction streams generalizing offset with
  | nil => rfl
  | cons stream streams ih => rw [headersFrom, List.length_cons, ih, List.length_cons]

theorem flatMap_write_headersFrom (offset : Nat) (streams : List (String × List UInt8)) :
    (headersFrom offset streams).flatMap StreamHeader.write =
      Builder.streamHeaders offset streams := by
  induction streams generalizing offset with
  | nil => rfl
  | cons stream streams ih =>
      rw [headersFrom, List.flatMap_cons, ih]
      rfl

theorem length_streamHeaders (offset : Nat) (streams : List (String × List UInt8)) :
    (Builder.streamHeaders offset streams).length = Builder.streamHeadersSize streams := by
  induction streams generalizing offset with
  | nil => rfl
  | cons stream streams ih =>
      have hsize : Builder.streamHeadersSize (stream :: streams) =
          8 + (Builder.paddedText stream.1).length + Builder.streamHeadersSize streams := rfl
      rw [hsize, Builder.streamHeaders]
      simp only [List.length_append, Bytes.length_toLittleEndian, ih]

def paddedStreams (streams : List (String × List UInt8)) : List UInt8 :=
  streams.flatMap fun stream => Builder.padded stream.2

theorem paddedStreams_cons (stream : String × List UInt8) (streams : List (String × List UInt8)) :
    paddedStreams (stream :: streams) = Builder.padded stream.2 ++ paddedStreams streams := by
  rfl

theorem map_extract_headersFrom {data : ByteArray} {front : List UInt8}
    {streams : List (String × List UInt8)}
    (hdata : data.data.toList = front ++ paddedStreams streams) :
    (headersFrom front.length streams).map
        (fun header => (header.name, data.extract header.offset header.stop)) =
      streams.map fun stream => (stream.1, stream.2.toByteArray) := by
  induction streams generalizing front with
  | nil => rfl
  | cons stream streams ih =>
      obtain ⟨name, bytes⟩ := stream
      have hbytes : data.data.toList = front ++ (bytes ++
          (List.replicate (align4 bytes.length - bytes.length) 0 ++ paddedStreams streams)) := by
        rw [hdata, paddedStreams_cons, Builder.padded, List.append_assoc]
      have hnext : data.data.toList =
          (front ++ Builder.padded bytes) ++ paddedStreams streams := by
        rw [hdata, paddedStreams_cons, List.append_assoc]
      have hrest := ih hnext
      rw [List.length_append, length_padded] at hrest
      rw [headersFrom, List.map_cons, hrest, List.map_cons]
      have hextract := extract_of_toList_eq hbytes
      simp only [StreamHeader.stop, hextract]

theorem stop_le_of_mem_headersFrom {offset : Nat} {streams : List (String × List UInt8)}
    {header : StreamHeader} (hheader : header ∈ headersFrom offset streams) :
    header.stop ≤ offset + (paddedStreams streams).length := by
  induction streams generalizing offset with
  | nil => cases hheader
  | cons stream streams ih =>
      rw [paddedStreams_cons, List.length_append, length_padded]
      rcases List.mem_cons.1 hheader with rfl | hmem
      · have hmore := le_align4 stream.2.length
        simp only [StreamHeader.stop]
        omega
      · have hstop := ih hmem
        omega

theorem map_name_headersFrom (offset : Nat) (streams : List (String × List UInt8)) :
    (headersFrom offset streams).map StreamHeader.name = streams.map Prod.fst := by
  induction streams generalizing offset with
  | nil => rfl
  | cons stream streams ih => rw [headersFrom, List.map_cons, ih, List.map_cons]

/-- The bytes of a stream are looked up by its name alone. -/
theorem streamIn_eq_find? {data : ByteArray} {headers : List StreamHeader}
    {streams : List (String × List UInt8)}
    (hheaders : headers.map (fun header => (header.name, data.extract header.offset header.stop)) =
      streams.map fun stream => (stream.1, stream.2.toByteArray)) (kind : StreamKind) :
    streamIn data headers kind =
      (streams.reverse.find? fun stream => stream.1 == kind.name).map
        fun stream => stream.2.toByteArray := by
  have hfind := congrArg
    (fun found => (found.reverse.find? fun entry => entry.1 == kind.name).map Prod.snd) hheaders
  simp only [← List.map_reverse, List.find?_map, Option.map_map, Function.comp_def] at hfind
  exact hfind

namespace Builder

variable {builder : Builder}

def streamStart (builder : Builder) : Nat :=
  (Builder.rootHeader builder.streams.length).length + streamHeadersSize builder.streams

/-- The headers that a reader of the image should find. -/
def imageHeaders (builder : Builder) : List StreamHeader :=
  headersFrom builder.streamStart builder.streams

def imageRoot (builder : Builder) : RootHeader where
  version := Builder.version
  flags := 0
  streamCount := builder.streams.length

theorem toList_image (builder : Builder) :
    builder.image.data.toList =
      Builder.rootHeader builder.streams.length ++
        (builder.imageHeaders.flatMap StreamHeader.write ++ paddedStreams builder.streams) := by
  rw [imageHeaders, flatMap_write_headersFrom, ← List.append_assoc]
  simp [image, paddedStreams, streamStart]

theorem map_extract_imageHeaders (builder : Builder) :
    builder.imageHeaders.map
        (fun header => (header.name, builder.image.extract header.offset header.stop)) =
      builder.streams.map fun stream => (stream.1, stream.2.toByteArray) := by
  have hdata := builder.toList_image
  rw [← List.append_assoc] at hdata
  have hextract := map_extract_headersFrom hdata
  have hlength : (Builder.rootHeader builder.streams.length ++
      builder.imageHeaders.flatMap StreamHeader.write).length = builder.streamStart := by
    rw [imageHeaders, flatMap_write_headersFrom, List.length_append, length_streamHeaders,
      streamStart]
  rw [hlength] at hextract
  exact hextract

theorem streamIn_image (builder : Builder) (kind : StreamKind) :
    streamIn builder.image builder.imageHeaders kind =
      (builder.streams.reverse.find? fun stream => stream.1 == kind.name).map
        fun stream => stream.2.toByteArray :=
  streamIn_eq_find? builder.map_extract_imageHeaders kind

theorem size_image (builder : Builder) :
    builder.image.size = builder.streamStart + (paddedStreams builder.streams).length := by
  have hlength := congrArg List.length builder.toList_image
  rw [imageHeaders, flatMap_write_headersFrom] at hlength
  simp only [List.length_append, length_streamHeaders, Array.length_toList,
    ByteArray.size_data] at hlength
  rw [hlength, streamStart, Nat.add_assoc]

theorem length_le_size_image {stream : String × List UInt8} (hstream : stream ∈ builder.streams) :
    stream.2.length ≤ builder.image.size := by
  obtain ⟨before, behind, hsplit⟩ := List.append_of_mem hstream
  have hpadded := le_align4 stream.2.length
  rw [size_image, hsplit, paddedStreams, List.flatMap_append, List.flatMap_cons]
  simp only [List.length_append, length_padded]
  omega

theorem length_tableStream_le (builder : Builder) :
    builder.tableStream.length ≤ builder.image.size := by
  have hstream : ("#~", builder.tableStream) ∈ builder.streams := by simp [streams]
  exact length_le_size_image hstream

/-! ## Reading the headers -/

theorem exists_kind_of_mem_streams (hextra : builder.extraStreams = [])
    {stream : String × List UInt8} (hstream : stream ∈ builder.streams) :
    ∃ kind : StreamKind, stream.1 = kind.name := by
  rw [streams, hextra, List.map_nil, List.append_nil, List.mem_append] at hstream
  rcases hstream with hpdb | husual
  · split at hpdb
    · rw [List.mem_singleton.1 hpdb]
      exact ⟨.pdb, rfl⟩
    · cases hpdb
  · simp only [List.mem_cons, List.not_mem_nil, or_false] at husual
    rcases husual with rfl | rfl | rfl | rfl | rfl
    · exact ⟨.tables, rfl⟩
    · exact ⟨.strings, rfl⟩
    · exact ⟨.userStrings, rfl⟩
    · exact ⟨.guids, rfl⟩
    · exact ⟨.blobs, rfl⟩

theorem length_streams_lt (hextra : builder.extraStreams = []) :
    builder.streams.length < Bytes.limit 2 := by
  rw [streams, hextra, List.map_nil, List.append_nil, List.length_append]
  split <;> simp [Bytes.limit]

theorem fits_of_mem_imageHeaders (hextra : builder.extraStreams = [])
    (hsize : builder.image.size < Bytes.limit 4) {header : StreamHeader}
    (hheader : header ∈ builder.imageHeaders) : header.Fits builder.image.size where
  stop_le := by
    rw [size_image]
    exact stop_le_of_mem_headersFrom hheader
  fileSize_lt := hsize
  kind := by
    have hname : header.name ∈ builder.imageHeaders.map StreamHeader.name :=
      List.mem_map_of_mem hheader
    rw [imageHeaders, map_name_headersFrom] at hname
    obtain ⟨stream, hstream, hfirst⟩ := List.mem_map.1 hname
    rw [← hfirst]
    exact exists_kind_of_mem_streams hextra hstream

theorem reads_readHeaders (hextra : builder.extraStreams = [])
    (hsize : builder.image.size < Bytes.limit 4) :
    Reads (SymbolFile.readHeaders builder.image.size)
      (Builder.rootHeader builder.streams.length ++
        builder.imageHeaders.flatMap StreamHeader.write)
      (builder.imageRoot, builder.imageHeaders) := by
  unfold SymbolFile.readHeaders
  refine (RootHeader.reads_read (length_streams_lt hextra)).bind ?_
  have hheaders := reads_replicate (fun header hheader =>
    reads_readKnownStream (fits_of_mem_imageHeaders hextra hsize hheader)) #[]
  rw [imageHeaders, length_headersFrom, Array.empty_append] at hheaders
  exact hheaders.bind_pure _

theorem run_readHeaders (hextra : builder.extraStreams = [])
    (hsize : builder.image.size < Bytes.limit 4) :
    (SymbolFile.readHeaders builder.image.size).run (Cursor.ofBytes builder.image) =
      .ok (builder.imageRoot, builder.imageHeaders) := by
  have hunread : (Cursor.ofBytes builder.image).unread =
      (Builder.rootHeader builder.streams.length ++
        builder.imageHeaders.flatMap StreamHeader.write) ++ paddedStreams builder.streams := by
    rw [Cursor.unread_ofBytes, toList_image, List.append_assoc]
  exact run_of_reads (reads_readHeaders hextra hsize) hunread

/-! ## Looking up the streams -/

/-- The bytes of the stream of each kind, where no streams were added by name. -/
def streamOf (builder : Builder) : StreamKind → Option ByteArray
  | .pdb => if builder.hasPdbStream then some builder.pdbStream.toByteArray else none
  | .tables => some builder.tableStream.toByteArray
  | .strings => some builder.strings
  | .userStrings => some [0].toByteArray
  | .blobs => some builder.blobs
  | .guids => some builder.guids

theorem streamIn_eq_streamOf (hextra : builder.extraStreams = []) (kind : StreamKind) :
    streamIn builder.image builder.imageHeaders kind = builder.streamOf kind := by
  rw [streamIn_image, streams, hextra]
  cases kind <;> cases hpdb : builder.hasPdbStream <;>
    simp [StreamKind.name, streamOf, toByteArray_toList, hpdb]

end Builder

end PortablePdb
