import ConferWorker.AuthenticodeSigning
import ConferWorker.ArtifactSize
import ConferWorker.ReaderTotality
import ConferWorker.ListenerStart
import ConferWorker.ProtocolFraming
import ConferWorker.UnansweredRead
import ConferWorker.WorkerGate
import ConferWorker.ErrorResponses
import ConferWorker.ChunkProgress
import ConferWorker.ArtifactRoundTrip
import ConferWorker.RegionAttribution
import ConferWorker.ParallelPdf
import ConferWorker.StoredKeys
import ConferWorker.TsvWords
import ConferWorker.ArtifactUnpacking
import ConferWorker.ChunkWindows
import ConferWorker.ChunkContainers
import ConferWorker.PlainText
import ConferWorker.CsvTables
import ConferWorker.OfficeCompleteness
import ConferWorker.MarkedFragments
import ConferWorker.TokenAgreement
import ConferWorker.AttestedKeys
import ConferWorker.OpenDocuments
import ConferWorker.OutlineLaw
import ConferWorker.RelayPreservation
import ConferWorker.RasterBounds
import ConferWorker.ErrorDiagnostics
import ConferWorker.GptTampering
import ConferWorker.MeasuredImages
import ConferWorker.SearchedPassages
import ConferWorker.ConfiguredWorkers
import ConferWorker.JsonParsing
import ConferWorker.Conversations
import ConferWorker.ServedClients
import ConferWorker.OfficePreflight
import ConferWorker.SearchedSessions
import ConferWorker.LetterConversation
