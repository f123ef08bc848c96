import ArithmeticTokens.Cursor.Session
import ArithmeticTokens.Main
import ArithmeticTokens.Proofs.Account
import ArithmeticTokens.Proofs.Caret
import ArithmeticTokens.Proofs.Concatenation
import ArithmeticTokens.Proofs.Coordinates
import ArithmeticTokens.Proofs.ErrorTexts
import ArithmeticTokens.Proofs.Faults
import ArithmeticTokens.Proofs.LineErrors
import ArithmeticTokens.Proofs.Listing
import ArithmeticTokens.Proofs.LongestMatch
import ArithmeticTokens.Proofs.LongestPrefix
import ArithmeticTokens.Proofs.Messages
import ArithmeticTokens.Proofs.Neighbours
import ArithmeticTokens.Proofs.Placement
import ArithmeticTokens.Proofs.Progress
import ArithmeticTokens.Proofs.Reconstruction
import ArithmeticTokens.Proofs.Replacement
import ArithmeticTokens.Proofs.Replay
import ArithmeticTokens.Proofs.Separation
import ArithmeticTokens.Proofs.Sessions
import ArithmeticTokens.Proofs.Surroundings
import ArithmeticTokens.Proofs.Writing
