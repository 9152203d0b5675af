import MailMerge.Main
import MailMerge.Proofs.Isolation
import MailMerge.Proofs.Simultaneous
import MailMerge.Proofs.Validity
import MailMerge.Proofs.Origins
import MailMerge.Proofs.Relisted
import MailMerge.Proofs.Remerged
import MailMerge.Proofs.Untouched
import MailMerge.Proofs.FullRows
import MailMerge.Proofs.Saved
import MailMerge.Proofs.Sections
import MailMerge.Proofs.Opened
import MailMerge.Proofs.Loaded
import MailMerge.Proofs.Letters
import MailMerge.Proofs.Tallies
import MailMerge.Proofs.Grammar
import MailMerge.Proofs.Insertions
import MailMerge.Proofs.Bystanders
import MailMerge.Proofs.Preserved
import MailMerge.Proofs.Formatted
import MailMerge.Proofs.Vanishing
import MailMerge.Proofs.Numbering
import MailMerge.Proofs.Targets
import MailMerge.Proofs.Leaves
import MailMerge.Proofs.Updates
import MailMerge.Proofs.Owners
