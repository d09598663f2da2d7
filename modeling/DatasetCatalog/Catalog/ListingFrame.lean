import DatasetCatalog.Catalog.Summary
import DatasetCatalog.Table.Entry
import DatasetCatalog.Table.Frame

/-! # Listings as frames

  A listing is handed out as its summaries, or as a frame that a library makes of their records.
-/

namespace DatasetCatalog.Catalog

/-- A listing as it is handed out. -/
inductive ListingOutput (α : Type) where
  | summaries (xs : List Summary)
  | frame (x : α)

/-- What a listing is handed out as; nothing means the summaries. -/
abbrev ListingFormat := Option FrameLibrary

/-- The format of a name. -/
def listingFormat? (name : String) : Option ListingFormat :=
  if name = "records" then some none else (FrameLibrary.ofName? name).map some

/-- The wording for a format that does not exist. -/
def unknownFormatMessage (name : String) : String := "Unknown output_format: " ++ Text.cite name

/-- The frame of records. Without records polars is handed nothing to make a frame of. -/
def frameOfRecords (libraries : FrameLibraries) (records : List (List (String × Json))) :
    FrameLibrary → Except ForeignError libraries.Frame
  | .pandas => libraries.pandas.frameOfRecords records
  | .polars =>
    if records.isEmpty then libraries.polars.frame []
    else libraries.polars.frameOfRecords records

/-- Summaries in a format. -/
def ListingOutput.ofSummaries (libraries : FrameLibraries) (format : ListingFormat)
    (xs : List Summary) : Except ForeignError (ListingOutput libraries.Frame) :=
  match format with
  | none => .ok (.summaries xs)
  | some library => (frameOfRecords libraries (xs.map Summary.record) library).map .frame

end DatasetCatalog.Catalog
