import ParallaX.Handshake.SourceLimit
import ParallaX.MlDsa.Sign
import ParallaX.MlDsa.Buffering
import ParallaX.Mux.Fairness
import ParallaX.Mux.RecordWindows
import ParallaX.Mux.TailHold
import ParallaX.Quic.AckFrames
import ParallaX.Quic.Authentication
import ParallaX.Quic.BlackHole
import ParallaX.Quic.Budgets
import ParallaX.Quic.CryptoStream
import ParallaX.Quic.Discard
import ParallaX.Quic.MtuSearch
import ParallaX.Quic.PacketNumbers
import ParallaX.Quic.RangeIndex
import ParallaX.Quic.ReadGenerations
import ParallaX.Quic.RttBounds
import ParallaX.Quic.SendCredit
import ParallaX.Quic.StreamBytes
import ParallaX.Quic.TransportParams
import ParallaX.Replay.CacheRuns
import ParallaX.Safari26.FlightOrder
import ParallaX.Secrets.SealedBundle
